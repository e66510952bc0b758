/-!
# BLAKE3

The 256-bit BLAKE3 hash of a byte string, in the unkeyed mode. The input is cut into chunks of
1024 bytes and each chunk into blocks of 64; the chunks are the leaves of a binary tree whose left
subtrees are complete, and every node is one compression whose result its parent takes as input.
-/
namespace PhotoArchive.Hash.Blake3

/-- The chaining value of a node: eight words. -/
abbrev Chaining := Vector UInt32 8

abbrev Block := Vector UInt32 16

def initial : Chaining :=
  #v[0x6A09E667, 0xBB67AE85, 0x3C6EF372, 0xA54FF53A, 0x510E527F, 0x9B05688C, 0x1F83D9AB, 0x5BE0CD19]

/-- The order in which a round takes the words of the block that the round before it took. -/
def permutation : Vector (Fin 16) 16 :=
  #v[2, 6, 3, 10, 7, 0, 4, 13, 1, 11, 12, 5, 9, 14, 15, 8]

/-- What a compression is told about the place of its block in the tree. -/
structure Flags where
  chunkStart : Bool := false
  chunkEnd : Bool := false
  parent : Bool := false
  root : Bool := false

def Flags.word (f : Flags) : UInt32 :=
  (if f.chunkStart then 1 else 0) ||| (if f.chunkEnd then 2 else 0) |||
    (if f.parent then 4 else 0) ||| (if f.root then 8 else 0)

def rotate (x n : UInt32) : UInt32 :=
  (x >>> n) ||| (x <<< (32 - n))

/-- Mixes two message words into four words of the state. -/
def mix (v : Block) (a b c d : Fin 16) (x y : UInt32) : Block :=
  let a₁ := v[a] + v[b] + x
  let d₁ := rotate (v[d] ^^^ a₁) 16
  let c₁ := v[c] + d₁
  let b₁ := rotate (v[b] ^^^ c₁) 12
  let a₂ := a₁ + b₁ + y
  let d₂ := rotate (d₁ ^^^ a₂) 8
  let c₂ := c₁ + d₂
  let b₂ := rotate (b₁ ^^^ c₂) 7
  (((v.set a a₂).set b b₂).set c c₂).set d d₂

/-- One round: the four columns of the state, then its four diagonals. -/
def round (v m : Block) : Block :=
  let v := mix v 0 4 8 12 m[0] m[1]
  let v := mix v 1 5 9 13 m[2] m[3]
  let v := mix v 2 6 10 14 m[4] m[5]
  let v := mix v 3 7 11 15 m[6] m[7]
  let v := mix v 0 5 10 15 m[8] m[9]
  let v := mix v 1 6 11 12 m[10] m[11]
  let v := mix v 2 7 8 13 m[12] m[13]
  mix v 3 4 9 14 m[14] m[15]

def rounds : Nat → Block → Block → Block
  | 0, v, _ => v
  | n + 1, v, m => rounds n (round v m) (permutation.map fun i => m[i])

/-- A node of the tree before its last compression. -/
structure Node where
  input : Chaining
  block : Block
  counter : UInt64
  length : UInt32
  flags : Flags

def Node.chaining (n : Node) : Chaining :=
  let v : Block := #v[n.input[0], n.input[1], n.input[2], n.input[3],
    n.input[4], n.input[5], n.input[6], n.input[7],
    initial[0], initial[1], initial[2], initial[3],
    n.counter.toUInt32, (n.counter >>> 32).toUInt32, n.length, n.flags.word]
  let v := rounds 7 v n.block
  #v[v[0] ^^^ v[8], v[1] ^^^ v[9], v[2] ^^^ v[10], v[3] ^^^ v[11],
    v[4] ^^^ v[12], v[5] ^^^ v[13], v[6] ^^^ v[14], v[7] ^^^ v[15]]

/-- Cuts a list into pieces of the given size, the last one shorter. The empty list is one piece. -/
def pieces {α : Type} (size : Nat) (pos : 0 < size) (l : List α) : List (List α) :=
  if l.length ≤ size then [l] else l.take size :: pieces size pos (l.drop size)
termination_by l.length
decreasing_by simp only [List.length_drop]; omega

/-- The word whose bytes, the least first, stand at an offset; bytes past the end are zero. -/
def wordAt (bytes : Array UInt8) (offset : Nat) : UInt32 :=
  let byte i := (bytes.getD (offset + i) 0).toUInt32
  byte 0 ||| (byte 1 <<< 8) ||| (byte 2 <<< 16) ||| (byte 3 <<< 24)

/-- The words of a block of at most 64 bytes, filled up with zeros. -/
def blockOf (bytes : List UInt8) : Block :=
  let a := bytes.toArray
  Vector.ofFn fun i => wordAt a (4 * i.val)

/-- The blocks of one chunk, each compression fed into the next, up to the node of the last. -/
def blocksNode (counter : UInt64) (input : Chaining) (first : Bool) : List (List UInt8) → Node
  | [] => ⟨input, blockOf [], counter, 0, { chunkStart := first, chunkEnd := true }⟩
  | [b] => ⟨input, blockOf b, counter, b.length.toUInt32, { chunkStart := first, chunkEnd := true }⟩
  | b :: rest =>
    let node : Node := ⟨input, blockOf b, counter, b.length.toUInt32, { chunkStart := first }⟩
    blocksNode counter node.chaining false rest

def chunkNode (counter : Nat) (bytes : List UInt8) : Node :=
  blocksNode counter.toUInt64 initial true (pieces 64 (by decide) bytes)

def parentNode (left right : Chaining) : Node :=
  ⟨initial, left ++ right, 0, 64, { parent := true }⟩

/-- The tree over chunks, the first of which has the given place. Its left subtree holds the
greatest power of two of chunks that leaves some for the right. -/
def treeNode (counter : Nat) (chunks : List (List UInt8)) : Node :=
  if _h : chunks.length ≤ 1 then chunkNode counter (chunks.headD [])
  else
    let left := Nat.pow 2 (chunks.length - 1).log2
    parentNode (treeNode counter (chunks.take left)).chaining
      (treeNode (counter + left) (chunks.drop left)).chaining
termination_by chunks.length
decreasing_by
  · have hn : chunks.length - 1 ≠ 0 := by omega
    have := Nat.log2_self_le hn
    simp only [List.length_take, Nat.pow_eq]
    omega
  · have := Nat.two_pow_pos (chunks.length - 1).log2
    simp only [List.length_drop, Nat.pow_eq]
    omega

def wordBytes (w : UInt32) : Vector UInt8 4 :=
  #v[w.toUInt8, (w >>> 8).toUInt8, (w >>> 16).toUInt8, (w >>> 24).toUInt8]

def hash (bytes : List UInt8) : Vector UInt8 32 :=
  let top := treeNode 0 (pieces 1024 (by decide) bytes)
  let words := { top with flags := { top.flags with root := true } : Node }.chaining
  Vector.ofFn fun i => (wordBytes words[i.val / 4])[i.val % 4]

end PhotoArchive.Hash.Blake3

import PhotoArchive.Number.Binary64

/-!
# Tables of a TOML document

The values of a TOML document and its tables, whose entries keep the order in which they came. How a
table came about decides what may still be added to it: a table of its own header or of braces is
closed to dotted keys, a table that only headers below it imply may get one header of its own, and
a table of dotted keys gets no header. A header below a table may stand anywhere.
-/
namespace PhotoArchive.Toml

/-- How a table came about: between braces, by a header of its own, implied by headers below it, or
by dotted keys. -/
inductive Origin where
  | braces
  | header
  | implied
  | dotted
  deriving DecidableEq, Repr

inductive Item where
  | text (s : String)
  | integer (n : Int)
  | float (x : Number.Binary64)
  | boolean (b : Bool)
  | moment
  | array (elements : List Item)
  | table (origin : Origin) (entries : List (String × Item))
  | tables (each : List (List (String × Item)))

abbrev Entries := List (String × Item)

namespace Entries

def find? (key : String) : Entries → Option Item
  | [] => none
  | (k, item) :: rest => if k = key then some item else find? key rest

def replace (key : String) (item : Item) : Entries → Entries
  | [] => []
  | (k, old) :: rest => if k = key then (k, item) :: rest else (k, old) :: replace key item rest

def erase (key : String) : Entries → Entries
  | [] => []
  | (k, item) :: rest => if k = key then rest else (k, item) :: erase key rest

/-- Adds a key at the end, unless it is there. -/
def add (key : String) (item : Item) (es : Entries) : Option Entries :=
  match es.find? key with
  | some _ => none
  | none => some (es ++ [(key, item)])

/-- Changes the last of some tables. -/
def changeLast (change : Entries → Option Entries) : List Entries → Option (List Entries)
  | [] => none
  | [es] => (change es).map fun es => [es]
  | es :: rest => (changeLast change rest).map fun rest => es :: rest

/-- Puts an item under a dotted key, given as the keys of the tables on its way and its last key.
The table that takes the item has to be one of dotted keys, except at the start of the way. -/
def put (mayTake : Bool) : List String → String → Item → Entries → Option Entries
  | [], key, item, es => if mayTake then es.add key item else none
  | step :: path, key, item, es =>
    match es.find? step with
    | none => (put true path key item []).map fun inner => es ++ [(step, .table .dotted inner)]
    | some (.table .dotted inner) =>
      (put true path key item inner).map fun inner => es.replace step (.table .dotted inner)
    | some (.table .implied inner) =>
      (put false path key item inner).map fun inner => es.replace step (.table .implied inner)
    | some (.tables each) =>
      (changeLast (put false path key item) each).map fun each => es.replace step (.tables each)
    | some _ => none

/-- Changes the entries of the table at the end of a way of headers. A table that is missing on the
way is implied, and of repeated tables the last is taken. -/
def under (change : Entries → Option Entries) : List String → Entries → Option Entries
  | [], es => change es
  | step :: path, es =>
    match es.find? step with
    | none => (under change path []).map fun inner => es ++ [(step, .table .implied inner)]
    | some (.table .braces _) => none
    | some (.table origin inner) =>
      (under change path inner).map fun inner => es.replace step (.table origin inner)
    | some (.tables each) =>
      (changeLast (under change path) each).map fun each => es.replace step (.tables each)
    | some _ => none

/-- Opens the table of a header. A table that was only implied keeps its entries and moves to the
end. -/
def openTable (key : String) (es : Entries) : Option Entries :=
  match es.find? key with
  | none => some (es ++ [(key, .table .header [])])
  | some (.table .implied inner) => some (es.erase key ++ [(key, .table .header inner)])
  | some _ => none

/-- Opens one more table of a repeated header. -/
def openElement (key : String) (es : Entries) : Option Entries :=
  match es.find? key with
  | none => some (es ++ [(key, .tables [[]])])
  | some (.tables each) => some (es.replace key (.tables (each ++ [[]])))
  | some _ => none

end Entries

end PhotoArchive.Toml

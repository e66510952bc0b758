/-!
# Words

How many numbers 64 bits hold. Data formats that know whole numbers of 64 bits refuse others or
read them as numbers with a fraction.
-/
namespace PhotoArchive.Number

def wordCount : Nat := 0x10000000000000000

/-- How many of them are not negative when one bit is a sign: two to the power of 63. -/
def signedCount : Nat := 0x8000000000000000

end PhotoArchive.Number

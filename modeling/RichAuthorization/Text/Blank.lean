/-!
White space and what is cut along it.
-/

namespace RichAuthorization.Text

def whiteSpaceRanges : List (Nat × Nat) :=
  [(0x0009, 0x000D), (0x0020, 0x0020), (0x0085, 0x0085), (0x00A0, 0x00A0), (0x1680, 0x1680),
   (0x2000, 0x200A), (0x2028, 0x2029), (0x202F, 0x202F), (0x205F, 0x205F), (0x3000, 0x3000)]

def isWhiteSpace (c : Char) : Bool :=
  whiteSpaceRanges.any fun (first, last) => first ≤ c.toNat && c.toNat ≤ last

theorem isWhiteSpace_space : isWhiteSpace ' ' = true := by decide

def isBlank (s : String) : Bool :=
  s.toList.all isWhiteSpace

/-- The run of characters that a text begins with, and the further runs after it. Only the first
run may be empty. -/
def runs : List Char → List Char × List (List Char)
  | [] => ([], [])
  | c :: cs =>
    let (run, later) := runs cs
    if isWhiteSpace c then ([], if run.isEmpty then later else run :: later)
    else (c :: run, later)

def words (s : String) : List String :=
  let (run, later) := runs s.toList
  (if run.isEmpty then later else run :: later).map String.ofList

def trimBoth (p : Char → Bool) (cs : List Char) : List Char :=
  ((cs.dropWhile p).reverse.dropWhile p).reverse

end RichAuthorization.Text

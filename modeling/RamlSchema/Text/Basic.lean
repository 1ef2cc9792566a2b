/-!
# Searching and cutting text

Starts, ends and parts of a text, found character by character. Each operation on `String` is the
one on its list of characters.
-/

namespace RamlSchema.Text

theorem length_dropWhile_le (p : Char → Bool) (cs : List Char) :
    (cs.dropWhile p).length ≤ cs.length := (List.dropWhile_suffix p).length_le

theorem isPrefixOf?_cons (c d : Char) (lead cs : List Char) :
    (c :: lead).isPrefixOf? (d :: cs) = if c == d then lead.isPrefixOf? cs else none := rfl

theorem isPrefixOf?_eq_some_iff {lead cs rest : List Char} :
    lead.isPrefixOf? cs = some rest ↔ cs = lead ++ rest := by
  induction lead generalizing cs with
  | nil => exact Option.some_inj
  | cons c lead ih =>
    cases cs with
    | nil => exact iff_of_false nofun nofun
    | cons d cs =>
      rw [isPrefixOf?_cons]
      by_cases hc : c = d
      · simp [hc, ih]
      · simp [hc, Ne.symm hc]

def startsWith (s lead : String) : Bool := lead.toList.isPrefixOf s.toList

def endsWith (s ending : String) : Bool := ending.toList.isSuffixOf s.toList

def dropPrefix? (s lead : String) : Option String :=
  (lead.toList.isPrefixOf? s.toList).map String.ofList

def dropSuffix? (s ending : String) : Option String :=
  (ending.toList.isSuffixOf? s.toList).map String.ofList

def stripSuffix (s ending : String) : String := (dropSuffix? s ending).getD s

/-- What precedes and what follows the first occurrence of `mark`. -/
def cutChars? (mark : List Char) : List Char → Option (List Char × List Char)
  | [] => none
  | c :: cs =>
    match mark.isPrefixOf? (c :: cs) with
    | some rest => some ([], rest)
    | none => (cutChars? mark cs).map fun (before, after) => (c :: before, after)

def cut? (s mark : String) : Option (String × String) :=
  (cutChars? mark.toList s.toList).map fun (before, after) => (.ofList before, .ofList after)

def contains (s part : String) : Bool := (cut? s part).isSome

/-- The parts of a text between the occurrences of `mark`, taken from the left. An empty mark cuts
nothing. -/
def splitChars (mark cs : List Char) : List (List Char) :=
  match cutChars? mark cs with
  | none => [cs]
  | some (before, after) =>
    if after.length < cs.length then before :: splitChars mark after else [cs]
termination_by cs.length

def split (s mark : String) : List String :=
  (splitChars mark.toList s.toList).map String.ofList

def fields (s : String) (mark : Char) : List String :=
  (s.toList.splitOn mark).map String.ofList

/-- What follows the last occurrence of `mark`, or the whole text if there is none. -/
def afterLast (s : String) (mark : Char) : String :=
  .ofList (s.toList.reverse.takeWhile (· != mark)).reverse

def dropEndWhile (s : String) (p : Char → Bool) : String :=
  .ofList (s.toList.reverse.dropWhile p).reverse

def replaceChar (s : String) (old new : Char) : String :=
  .ofList (s.toList.map fun c => if c = old then new else c)

def joinWith (mark : String) (parts : List String) : String := mark.intercalate parts

/-- Every line of a text that is written line by line, each followed by a line feed. -/
def unlines (lines : List String) : String := .join (lines.map (· ++ "\n"))

def sorted (texts : List String) : List String := texts.mergeSort fun a b => !(b < a)

end RamlSchema.Text

import TemplateMarkup.Text.Basic
import TemplateMarkup.Text.CaseTable

namespace TemplateMarkup.Text

def isInRanges (ranges : List (Nat × Nat)) (c : Char) : Bool :=
  ranges.any fun (first, last) => first ≤ c.toNat && c.toNat ≤ last

def lowerChar (c : Char) : Char :=
  if c.toNat < 128 then c.toLower
  else
    match CaseTable.lowered.find? fun run =>
      run.first ≤ c.toNat && c.toNat ≤ run.last && (c.toNat - run.first) % run.stride == 0 with
    | some run => Char.ofNat (run.image + (c.toNat - run.first))
    | none => c

def meetsCased (cs : Text) : Bool :=
  (cs.dropWhile (isInRanges CaseTable.ignorable)).head?.any (isInRanges CaseTable.cased)

/-- The lower case of a letter between the characters `before`, last one first, and `after`. A
sigma is final when a letter comes before it and none after it. -/
def lowerAt (before : Text) (c : Char) (after : Text) : Text :=
  if c = 'Σ' then [if meetsCased before && !meetsCased after then 'ς' else 'σ']
  else if c = '\u0130' then ['i', '\u0307']
  else [lowerChar c]

def lowercaseFrom (before : Text) : Text → Text
  | [] => []
  | c :: after => lowerAt before c after ++ lowercaseFrom (c :: before) after

def lowercase (cs : Text) : Text :=
  lowercaseFrom [] cs

end TemplateMarkup.Text

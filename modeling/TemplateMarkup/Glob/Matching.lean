import TemplateMarkup.Glob.FileName

/-! Every end of a path, from the whole path to the empty one, carries a mark. A pattern is tried from its last
part to its first, and the marks say which ends the parts so far fit. -/

namespace TemplateMarkup.Glob

def slash : UInt8 :=
  0x2F

abbrev Marks := List Bool

namespace Marks

def atEnd (path : List UInt8) : Marks :=
  path.map (fun _ => false) ++ [true]

def first (marks : Marks) : Bool :=
  marks.headD false

def or (a b : Marks) : Marks :=
  List.zipWith (· || ·) a b

def orLater : Marks → Marks
  | [] => []
  | mark :: marks =>
    let later := orLater marks
    (mark || first later) :: later

def afterByte (p : UInt8 → Bool) : List UInt8 → Marks → Marks
  | b :: path, _ :: marks => (p b && first marks) :: afterByte p path marks
  | _, _ => [false]

def afterBytes (run path : List UInt8) (marks : Marks) : Marks :=
  run.foldr (fun b => afterByte (· == b) path) marks

def orAfterSlash (path : List UInt8) (marks : Marks) : Marks :=
  or marks (orLater (afterByte (· == slash) path marks))

end Marks

/-- The ranges of bytes that a range of characters stands for. The last byte of its first
character and the first byte of its last one make a range; their other bytes stand for themselves.
-/
def byteRanges (first last : Char) : List (UInt8 × UInt8) :=
  let low := Text.bytes [first]
  if first = last then low.map fun b => (b, b)
  else
    let high := Text.bytes [last]
    low.dropLast.map (fun b => (b, b)) ++ [(low.getLastD 0, high.headD 0)] ++
      high.tail.map fun b => (b, b)

def isInClass (ranges : List (Char × Char)) (b : UInt8) : Bool :=
  ranges.any fun (first, last) => (byteRanges first last).any fun (low, high) => low ≤ b && b ≤ high

mutual

def Part.marks (path : List UInt8) (marks : Marks) : Part → Marks
  | .letter c => Marks.afterBytes (Text.bytes [c]) path marks
  | .anyByte => Marks.afterByte (fun _ => true) path marks
  | .anyRun => marks.orLater
  | .leading => Marks.orAfterSlash path marks
  | .between => Marks.afterByte (· == slash) path (Marks.orAfterSlash path marks)
  | .trailing => Marks.afterByte (· == slash) path marks.orLater
  | .oneOf negated ranges => Marks.afterByte (isInClass ranges · != negated) path marks
  | .choice [] => marks
  | .choice (parts :: others) => (marksOfAll path marks parts).or (marksOfAny path marks others)

def marksOfAll (path : List UInt8) (marks : Marks) : List Part → Marks
  | [] => marks
  | part :: others => part.marks path (marksOfAll path marks others)

def marksOfAny (path : List UInt8) (marks : Marks) : List (List Part) → Marks
  | [] => marks.map fun _ => false
  | parts :: others => (marksOfAll path marks parts).or (marksOfAny path marks others)

end

def fitsAll : List Part → Bool
  | [.leading] => true
  | _ => false

def fits (parts : List Part) (path : Text) : Bool :=
  let bytes := Text.bytes path
  fitsAll parts || (marksOfAll bytes (Marks.atEnd bytes) parts).first

def isMatch (parts : List Part) (path : Text) : Bool :=
  (leadsToFile path || !asksForFile parts) && fits parts path

end TemplateMarkup.Glob

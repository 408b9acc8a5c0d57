import TemplateMarkup.Glob.Pattern

namespace TemplateMarkup.Glob

/-- Reads a class of characters up to its closing bracket. The ranges read so far are last first,
and `waiting` says that a hyphen may still turn the last one into a longer one. A bracket or a
hyphen that comes first stands for itself, and so does a hyphen that comes last. -/
def readClass (first waiting : Bool) (ranges : List (Char × Char)) :
    Text → Except Fault (List (Char × Char) × Text)
  | [] => .error .unclosedClass
  | c :: rest =>
    if c = ']' && !first then
      .ok ((if waiting then ('-', '-') :: ranges else ranges).reverse, rest)
    else if c = '-' && !first && !waiting then readClass false true ranges rest
    else
      match waiting, ranges with
      | true, (low, _) :: others =>
        if c < low then .error (.invalidRange low c)
        else readClass false false ((low, c) :: others) rest
      | _, _ => readClass false false ((c, c) :: ranges) rest

theorem length_lt_of_readClass {first waiting : Bool} {ranges found : List (Char × Char)}
    {cs rest : Text} (h : readClass first waiting ranges cs = .ok (found, rest)) :
    rest.length < cs.length := by
  fun_induction readClass first waiting ranges cs with
  | case1 => cases h
  | case2 =>
    cases h
    simp
  | case3 _ _ _ _ _ _ _ ih =>
    have := ih h
    simp only [List.length_cons]
    omega
  | case4 => cases h
  | case5 _ _ _ _ _ _ _ _ _ ih =>
    have := ih h
    simp only [List.length_cons]
    omega
  | case6 _ _ _ _ _ _ _ _ ih =>
    have := ih h
    simp only [List.length_cons]
    omega

def readMembers (negated : Bool) (cs : Text) : Except Fault (Part × Text) :=
  (readClass true false [] cs).map fun (ranges, rest) => (.oneOf negated ranges, rest)

def readOneOf : Text → Except Fault (Part × Text)
  | '!' :: rest => readMembers true rest
  | '^' :: rest => readMembers true rest
  | rest => readMembers false rest

theorem length_lt_of_readMembers {negated : Bool} {cs rest : Text} {part : Part}
    (h : readMembers negated cs = .ok (part, rest)) : rest.length < cs.length := by
  unfold readMembers at h
  cases hr : readClass true false [] cs with
  | error e => simp [hr, Except.map] at h
  | ok found =>
    obtain ⟨ranges, after⟩ := found
    simp only [hr, Except.map, Except.ok.injEq, Prod.mk.injEq] at h
    obtain ⟨-, rfl⟩ := h
    exact length_lt_of_readClass hr

theorem length_lt_of_readOneOf {cs rest : Text} {part : Part}
    (h : readOneOf cs = .ok (part, rest)) : rest.length < cs.length := by
  unfold readOneOf at h
  split at h
  · have := length_lt_of_readMembers h
    simp only [List.length_cons]
    omega
  · have := length_lt_of_readMembers h
    simp only [List.length_cons]
    omega
  · exact length_lt_of_readMembers h

structure Group where
  -- Parts and alternatives are last first.
  before : List Part
  finished : List (List Part)
deriving Repr

/-- A pattern up to some character: the open braces, innermost first, and the parts of the
alternative or pattern that is being read, last first. -/
structure Draft where
  groups : List Group
  current : List Part
deriving Repr

namespace Draft

def start : Draft :=
  ⟨[], []⟩

def add (d : Draft) (part : Part) : Draft :=
  { d with current := part :: d.current }

def absorb (d : Draft) (part : Part) : Draft :=
  match d.current with
  -- What is itself made of two stars stays.
  | .leading :: _ => d
  | .trailing :: _ => d
  | _ :: others => { d with current := part :: others }
  | [] => d.add part

def isInside (d : Draft) : Bool :=
  !d.groups.isEmpty

def openBrace (d : Draft) : Draft :=
  ⟨⟨d.current, []⟩ :: d.groups, []⟩

def comma (d : Draft) : Draft :=
  match d.groups with
  | [] => d.add (.letter ',')
  | g :: outer => ⟨{ g with finished := d.current.reverse :: g.finished } :: outer, []⟩

def closeBrace (d : Draft) : Except Fault Draft :=
  match d.groups with
  | [] => .error .unopenedChoice
  | g :: outer =>
    let alternatives := (d.current.reverse :: g.finished).reverse
    -- An alternative that is written but matches only the empty path is dropped.
    let kept := alternatives.filter fun parts => !parts.all Part.isEmptyChoice
    .ok ⟨outer, .choice kept :: g.before⟩

/-- Two stars after the character `previous` and before `rest`, and whether a slash of `rest`
belongs to them. -/
def twoStars (d : Draft) (previous : Option Char) (rest : Text) : Draft × Bool :=
  let apart := (d.add .anyRun).add .anyRun
  if d.current.isEmpty then
    match rest with
    | [] => (d.add .leading, false)
    | '/' :: _ => (d.add .leading, true)
    | _ => (apart, false)
  else if previous = some '/' || d.isInside && (previous = some ',' || previous = some '{') then
    match rest with
    | [] => (d.absorb .trailing, false)
    | '/' :: _ => (d.absorb .between, true)
    | c :: _ =>
      if d.isInside && (c = ',' || c = '}') then (d.absorb .trailing, false) else (apart, false)
  else (apart, false)

def finish (d : Draft) (previous : Option Char) (cs : Text) : Except Fault (List Part) :=
  match cs with
  | [] => if d.isInside then .error .unclosedChoice else .ok d.current.reverse
  | '?' :: rest => (d.add .anyByte).finish (some '?') rest
  | '*' :: '*' :: rest =>
    match d.twoStars previous rest with
    | (d, true) => d.finish (some '/') (rest.drop 1)
    | (d, false) => d.finish (some '*') rest
  | '*' :: rest => (d.add .anyRun).finish (some '*') rest
  | '[' :: rest =>
    match _class : readOneOf rest with
    | .error fault => .error fault
    | .ok (part, rest) => (d.add part).finish (some ']') rest
  | '{' :: rest => d.openBrace.finish (some '{') rest
  | '}' :: rest =>
    match d.closeBrace with
    | .error fault => .error fault
    | .ok d => d.finish (some '}') rest
  | ',' :: rest => d.comma.finish (some ',') rest
  | '\\' :: c :: rest => (d.add (.letter c)).finish (some c) rest
  | ['\\'] => .error .danglingEscape
  | c :: rest => (d.add (.letter c)).finish (some c) rest
termination_by cs.length
decreasing_by
  all_goals simp only [List.length_cons, List.length_drop]
  all_goals try have := length_lt_of_readOneOf _class
  all_goals omega

end Draft

def read (pattern : Text) : Except Fault (List Part) :=
  Draft.start.finish none pattern

end TemplateMarkup.Glob

/-! A text is a list of characters, and places in it are counted in bytes of its UTF-8 form. -/

namespace TemplateMarkup

abbrev Text := List Char

namespace Text

def size (cs : Text) : Nat :=
  cs.foldr (fun c n => c.utf8Size + n) 0

@[simp] theorem size_nil : size [] = 0 := rfl

@[simp] theorem size_cons (c : Char) (cs : Text) : size (c :: cs) = c.utf8Size + size cs := rfl

@[simp] theorem size_append (as bs : Text) : size (as ++ bs) = size as + size bs := by
  induction as with
  | nil => simp
  | cons a as ih => simp [ih, Nat.add_assoc]

@[simp] theorem size_reverse (cs : Text) : size cs.reverse = size cs := by
  induction cs with
  | nil => rfl
  | cons c cs ih => simp [ih, Nat.add_comm]

theorem length_le_size (cs : Text) : cs.length ≤ size cs := by
  induction cs with
  | nil => simp
  | cons c cs ih =>
    have := c.utf8Size_pos
    simp only [List.length_cons, size_cons]
    omega

theorem size_eq_zero_iff {cs : Text} : size cs = 0 ↔ cs = [] := by
  constructor
  · intro h
    have := length_le_size cs
    exact List.eq_nil_of_length_eq_zero (by omega)
  · rintro rfl
    rfl

theorem append_inj_of_size {as bs cs ds : Text} (h : as ++ bs = cs ++ ds)
    (hs : size as = size cs) : as = cs ∧ bs = ds := by
  induction as generalizing cs with
  | nil =>
    obtain rfl := size_eq_zero_iff.1 (show size cs = 0 by simpa using hs.symm)
    exact ⟨rfl, h⟩
  | cons a as ih =>
    cases cs with
    | nil =>
      have := a.utf8Size_pos
      simp only [size_cons, size_nil] at hs
      omega
    | cons c cs =>
      simp only [List.cons_append, List.cons.injEq] at h
      obtain ⟨rfl, h⟩ := h
      obtain ⟨rfl, rfl⟩ := ih h (by simpa using hs)
      exact ⟨rfl, rfl⟩

def bytes (cs : Text) : List UInt8 :=
  cs.flatMap String.utf8EncodeChar

def decimal (n : Nat) : Text :=
  Nat.toDigits 10 n

def isBlank (c : Char) : Bool :=
  c == ' ' || c == '\t' || c == '\r' || c == '\n' || c == '\x0C'

def cutBlank (cs : Text) : Text × Text :=
  (cs.takeWhile isBlank, cs.dropWhile isBlank)

@[simp] theorem cutBlank_append (cs : Text) : (cutBlank cs).1 ++ (cutBlank cs).2 = cs :=
  List.takeWhile_append_dropWhile

end Text

end TemplateMarkup

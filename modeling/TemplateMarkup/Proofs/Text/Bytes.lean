import Mathlib.Data.List.Flatten
import TemplateMarkup.Text.Basic

/-! A text is known by its bytes, and a byte below 128 is a character of its own. -/

namespace TemplateMarkup

namespace Text

variable {b : UInt8} {c d : Char} {cs ds : Text}

lemma bytes_cons (c : Char) (cs : Text) : bytes (c :: cs) = String.utf8EncodeChar c ++ bytes cs := rfl

lemma bytes_append (cs ds : Text) : bytes (cs ++ ds) = bytes cs ++ bytes ds :=
  List.flatMap_append

lemma length_bytes (cs : Text) : (bytes cs).length = size cs := by
  induction cs with
  | nil => rfl
  | cons c cs ih => rw [bytes_cons, List.length_append, ih, String.length_utf8EncodeChar, size_cons]

lemma bytes_injective : Function.Injective bytes := by
  intro cs ds h
  apply String.ofList_injective
  rw [← String.toByteArray_inj, String.toByteArray_ofList, String.toByteArray_ofList]
  exact congrArg List.toByteArray h

lemma le_toNat_of_mem_utf8EncodeChar (hc : 127 < c.val.toNat) :
    ∀ b ∈ String.utf8EncodeChar c, 128 ≤ b.toNat := by
  rw [String.utf8EncodeChar]
  simp only [if_neg (Nat.not_le.2 hc)]
  split
  · simp only [List.forall_mem_cons, UInt8.toNat_ofNat']
    refine ⟨?_, ?_, List.forall_mem_nil _⟩ <;> omega
  split
  · simp only [List.forall_mem_cons, UInt8.toNat_ofNat']
    refine ⟨?_, ?_, ?_, List.forall_mem_nil _⟩ <;> omega
  · simp only [List.forall_mem_cons, UInt8.toNat_ofNat']
    refine ⟨?_, ?_, ?_, ?_, List.forall_mem_nil _⟩ <;> omega

lemma eq_of_ascii_mem (hd : String.utf8EncodeChar d = [b]) (hb : b.toNat < 128)
    (h : b ∈ String.utf8EncodeChar c) : c = d := by
  -- A character above 127 has no byte as small as this one, and any other is its only byte.
  by_cases hc : c.val.toNat ≤ 127
  · have hsingle : String.utf8EncodeChar c = [b] := by
      rw [String.utf8EncodeChar] at h ⊢
      simp only [if_pos hc, List.mem_singleton] at h ⊢
      rw [h]
    have hbytes : bytes [c] = bytes [d] := by
      rw [bytes_cons, bytes_cons, hsingle, hd]
    exact (List.cons.inj (bytes_injective hbytes)).1
  · have hlow := le_toNat_of_mem_utf8EncodeChar (Nat.lt_of_not_le hc) b h
    omega

lemma not_mem_bytes (hd : String.utf8EncodeChar d = [b]) (hb : b.toNat < 128) (h : d ∉ cs) :
    b ∉ bytes cs := by
  intro hmem
  obtain ⟨c, hc, hmem⟩ := List.mem_flatMap.1 hmem
  exact h (eq_of_ascii_mem hd hb hmem ▸ hc)

end Text

end TemplateMarkup

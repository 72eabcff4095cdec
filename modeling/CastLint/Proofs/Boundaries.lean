import CastLint.Text.Bytes

/-! The offsets at which a text can be cut, and the pieces that cuts leave. A cut is given by the
two sides of the text, so that facts about offsets are facts about lists of characters. -/

namespace CastLint
namespace Text

def encode (cs : List Char) : List UInt8 := cs.flatMap String.utf8EncodeChar

@[simp] theorem encode_nil : encode [] = [] := rfl

@[simp] theorem encode_append (xs ys : List Char) : encode (xs ++ ys) = encode xs ++ encode ys := by
  simp [encode]

@[simp] theorem encode_length (cs : List Char) : (encode cs).length = byteLength cs := by
  induction cs with
  | nil => rfl
  | cons c cs ih =>
    have hc : encode (c :: cs) = String.utf8EncodeChar c ++ encode cs := by simp [encode]
    rw [hc, List.length_append, String.length_utf8EncodeChar, ih, byteLength_cons]

theorem byteLength_eq_zero {cs : List Char} : byteLength cs = 0 ↔ cs = [] := by
  cases cs with
  | nil => simp
  | cons c cs =>
    have hc := c.utf8Size_pos
    simp only [byteLength_cons, reduceCtorEq, iff_false]
    omega

/-- A byte offset between two characters of a text, or at one of its ends. -/
def IsBoundary (cs : List Char) (offset : Nat) : Prop :=
  ∃ front back, cs = front ++ back ∧ byteLength front = offset

theorem isBoundary_append (front back : List Char) : IsBoundary (front ++ back) (byteLength front) :=
  ⟨front, back, rfl, rfl⟩

theorem isBoundary_zero (cs : List Char) : IsBoundary cs 0 := ⟨[], cs, rfl, rfl⟩

theorem isBoundary_byteLength (cs : List Char) : IsBoundary cs (byteLength cs) :=
  ⟨cs, [], by simp, rfl⟩

theorem IsBoundary.le_byteLength {cs : List Char} {offset : Nat} (h : IsBoundary cs offset) :
    offset ≤ byteLength cs := by
  obtain ⟨front, back, rfl, rfl⟩ := h
  simp

/-- An offset cuts a text in one way only. -/
theorem splitAtByte_append (front back : List Char) :
    splitAtByte (front ++ back) (byteLength front) = some (front, back) := by
  induction front with
  | nil => simp [splitAtByte]
  | cons c front ih =>
    have hc := c.utf8Size_pos
    obtain ⟨n, hn⟩ : ∃ n, byteLength (c :: front) = n + 1 :=
      ⟨byteLength (c :: front) - 1, by simp only [byteLength_cons]; omega⟩
    have hfits : c.utf8Size ≤ n + 1 := by rw [← hn, byteLength_cons]; omega
    have hrest : n + 1 - c.utf8Size = byteLength front := by rw [← hn, byteLength_cons]; omega
    rw [List.cons_append, hn, splitAtByte, if_pos hfits, hrest, ih]
    rfl

theorem splitAtByte_sound {cs front back : List Char} {n : Nat}
    (h : splitAtByte cs n = some (front, back)) : cs = front ++ back ∧ byteLength front = n := by
  fun_induction splitAtByte cs n generalizing front back with
  | case1 cs =>
    obtain ⟨rfl, rfl⟩ := Prod.mk.inj (Option.some.inj h)
    simp
  | case2 => simp at h
  | case3 c cs n hfits ih =>
    obtain ⟨⟨before, after⟩, hsplit, heq⟩ := Option.map_eq_some_iff.mp h
    obtain ⟨rfl, rfl⟩ := Prod.mk.inj heq
    obtain ⟨rfl, hlen⟩ := ih hsplit
    refine ⟨rfl, ?_⟩
    rw [byteLength_cons, hlen]
    omega
  | case4 => simp at h

theorem splitAtByte_eq_some_iff {cs front back : List Char} {n : Nat} :
    splitAtByte cs n = some (front, back) ↔ cs = front ++ back ∧ byteLength front = n := by
  constructor
  · exact splitAtByte_sound
  · rintro ⟨rfl, rfl⟩
    exact splitAtByte_append front back

theorem sliceBytes_eq_some_iff {cs mid : List Char} {start stop : Nat} :
    sliceBytes cs start stop = some mid ↔
      ∃ front back, cs = front ++ mid ++ back ∧ byteLength front = start ∧
        byteLength (front ++ mid) = stop := by
  constructor
  · intro h
    unfold sliceBytes at h
    split at h
    · rename_i hle
      cases hfront : splitAtByte cs start with
      | none => simp [hfront] at h
      | some cut =>
        obtain ⟨front, rest⟩ := cut
        simp only [hfront, Option.map_eq_some_iff] at h
        obtain ⟨⟨taken, back⟩, hback, rfl⟩ := h
        obtain ⟨rfl, hstart⟩ := splitAtByte_eq_some_iff.mp hfront
        obtain ⟨rfl, hmid⟩ := splitAtByte_eq_some_iff.mp hback
        refine ⟨front, back, by simp, hstart, ?_⟩
        rw [byteLength_append, hstart, hmid]
        omega
    · simp at h
  · rintro ⟨front, back, rfl, rfl, rfl⟩
    have hle : byteLength front ≤ byteLength (front ++ mid) := by simp
    have hrest : byteLength (front ++ mid) - byteLength front = byteLength mid := by simp
    rw [sliceBytes, if_pos hle, List.append_assoc, splitAtByte_append]
    simp only [hrest, splitAtByte_append, Option.map_some]

theorem exists_mid_of_byteLength_le {front front' back back' : List Char}
    (h : front ++ back = front' ++ back') (hle : byteLength front ≤ byteLength front') :
    ∃ mid, front' = front ++ mid ∧ back = mid ++ back' := by
  obtain ⟨mid, rfl, rfl⟩ | ⟨mid, rfl, rfl⟩ := List.append_eq_append_iff.mp h
  · exact ⟨mid, rfl, rfl⟩
  · have hmid : mid = [] := by
      rw [← byteLength_eq_zero]
      simp only [byteLength_append] at hle
      omega
    subst hmid
    exact ⟨[], by simp, by simp⟩

theorem IsBoundary.exists_between {cs : List Char} {start stop : Nat} (hstart : IsBoundary cs start)
    (hstop : IsBoundary cs stop) (hle : start ≤ stop) :
    ∃ front mid back, cs = front ++ mid ++ back ∧ byteLength front = start ∧
      byteLength (front ++ mid) = stop := by
  obtain ⟨front, rest, rfl, rfl⟩ := hstart
  obtain ⟨front', back, heq, rfl⟩ := hstop
  obtain ⟨mid, rfl, rfl⟩ := exists_mid_of_byteLength_le heq hle
  exact ⟨front, mid, back, by simp, rfl, rfl⟩

theorem exists_append_of_between {front mid back before inner after : List Char}
    (h : front ++ mid ++ back = before ++ inner ++ after)
    (hstart : byteLength front ≤ byteLength before)
    (hstop : byteLength (before ++ inner) ≤ byteLength (front ++ mid)) :
    ∃ left right, mid = left ++ inner ++ right := by
  rw [List.append_assoc, List.append_assoc] at h
  obtain ⟨left, rfl, hrest⟩ := exists_mid_of_byteLength_le h hstart
  rw [← List.append_assoc] at hrest
  have hfits : byteLength (left ++ inner) ≤ byteLength mid := by
    simp only [byteLength_append] at hstop ⊢
    omega
  obtain ⟨right, rfl, -⟩ := exists_mid_of_byteLength_le hrest.symm hfits
  exact ⟨left, right, rfl⟩

theorem isBoundary_iff_isSome {cs : List Char} {offset : Nat} :
    IsBoundary cs offset ↔ (splitAtByte cs offset).isSome := by
  constructor
  · rintro ⟨front, back, rfl, rfl⟩
    simp [splitAtByte_append]
  · intro h
    obtain ⟨⟨front, back⟩, hsplit⟩ := Option.isSome_iff_exists.mp h
    exact ⟨front, back, splitAtByte_eq_some_iff.mp hsplit⟩

instance isBoundaryDecidable (cs : List Char) (offset : Nat) : Decidable (IsBoundary cs offset) :=
  decidable_of_iff _ isBoundary_iff_isSome.symm

end Text
end CastLint

import Mathlib.Data.List.DropRight

/-!
# Text that may not be UTF-8

A text is a string of bytes, and need not be well formed. Reading it from the
front, a byte that begins no character stands for the replacement character;
reading it from the back, the last character is there only if its whole encoding
is. Taking characters away at either end is the same loop with the two readings,
and has one rule.
-/

namespace WatchTrace.Text

/-- The bytes of some characters. What is valid UTF-8 is one of these. -/
def encode (cs : List Char) : List UInt8 := cs.flatMap String.utf8EncodeChar

/-- The character a text begins with. -/
def first (s : List UInt8) : Option Char := s.toByteArray.utf8DecodeChar? 0

/-- The character a text ends with. -/
def last (s : List UInt8) : Option Char :=
  [1, 2, 3, 4].findSome? fun k => (first (s.drop (s.length - k))).filter fun c => c.utf8Size == k

/-- The characters of a text from the front; `skip` bytes belong to the one
before. -/
def charsFrom : Nat → List UInt8 → List Char
  | _, [] => []
  | skip + 1, _ :: rest => charsFrom skip rest
  | 0, b :: rest =>
    match first (b :: rest) with
    | some c => c :: charsFrom (c.utf8Size - 1) rest
    | none => '�' :: charsFrom 0 rest

def chars (s : List UInt8) : List Char := charsFrom 0 s

/-- Takes characters that satisfy `p` away at the end that `read` and `cut` are
about. -/
def peel (read : List UInt8 → Option Char) (cut : List UInt8 → Nat → List UInt8) (p : Char → Bool) :
    Nat → List UInt8 → List UInt8
  | 0, s => s
  | n + 1, s =>
    match (read s).filter p with
    | some c => peel read cut p n (cut s c.utf8Size)
    | none => s

def trimLeft (p : Char → Bool) (s : List UInt8) : List UInt8 :=
  peel first (fun s n => s.drop n) p s.length s

def trimRight (p : Char → Bool) (s : List UInt8) : List UInt8 := peel last List.rdrop p s.length s

def trim (p : Char → Bool) (s : List UInt8) : List UInt8 := trimRight p (trimLeft p s)

variable {s t : List UInt8} {c : Char} {cs : List Char} {p : Char → Bool}

@[simp] theorem encode_nil : encode [] = [] := rfl

@[simp] theorem encode_cons : encode (c :: cs) = String.utf8EncodeChar c ++ encode cs := rfl

@[simp] theorem encode_append {ds : List Char} : encode (cs ++ ds) = encode cs ++ encode ds :=
  List.flatMap_append

/-! ## The two ends -/

theorem first_eq_some : first s = some c ↔ ∃ t, s = String.utf8EncodeChar c ++ t := by
  constructor
  · intro h
    obtain ⟨t, ht⟩ := ByteArray.exists_of_utf8DecodeChar?_eq_some h
    refine ⟨t.data.toList, ?_⟩
    have := congrArg (fun b : ByteArray => b.data.toList) ht
    simpa using this
  · rintro ⟨t, rfl⟩
    rw [first, List.toByteArray_append]
    exact ByteArray.utf8DecodeChar?_utf8EncodeChar_append

theorem utf8EncodeChar_ne_nil : String.utf8EncodeChar c ≠ [] :=
  List.ne_nil_of_length_pos (by rw [String.length_utf8EncodeChar]; exact c.utf8Size_pos)

theorem isUTF8FirstByte_of_first {b : UInt8} (h : first (b :: s) = some c) :
    b.IsUTF8FirstByte := by
  obtain ⟨t, ht⟩ := first_eq_some.1 h
  obtain ⟨b', u, hu⟩ := List.exists_cons_of_ne_nil (utf8EncodeChar_ne_nil (c := c))
  rw [hu, List.cons_append, List.cons.injEq] at ht
  have hlen : 0 < (String.utf8EncodeChar c).length := by simp [hu]
  have hfirst : (String.utf8EncodeChar c)[0].IsUTF8FirstByte ↔ 0 = 0 :=
    UInt8.isUTF8FirstByte_getElem_utf8EncodeChar
  simpa [hu, ht.1] using hfirst

/-- No character begins inside another. -/
theorem first_inside {u v : List UInt8} (h : String.utf8EncodeChar c = u ++ v) (hu : u ≠ [])
    (hv : v ≠ []) : first (v ++ s) = none := by
  obtain ⟨b, v, rfl⟩ := List.exists_cons_of_ne_nil hv
  have hlen : u.length < (String.utf8EncodeChar c).length := by simp [h]
  have hinside : (String.utf8EncodeChar c)[u.length].IsUTF8FirstByte ↔ u.length = 0 :=
    UInt8.isUTF8FirstByte_getElem_utf8EncodeChar
  have hb : ¬ b.IsUTF8FirstByte := by simpa [h, hu] using hinside
  cases hd : first (b :: v ++ s) with
  | none => rfl
  | some d => exact absurd (isUTF8FirstByte_of_first hd) hb

theorem last_eq_some : last s = some c ↔ ∃ t, s = t ++ String.utf8EncodeChar c := by
  constructor
  · intro h
    obtain ⟨k, -, hk⟩ := List.exists_of_findSome?_eq_some h
    obtain ⟨hc, hsize⟩ := Option.filter_eq_some_iff.1 hk
    obtain ⟨t, ht⟩ := first_eq_some.1 hc
    have hlen := congrArg List.length ht
    rw [List.length_drop, List.length_append, String.length_utf8EncodeChar,
      beq_iff_eq.1 hsize] at hlen
    rw [List.length_eq_zero_iff.1 (by omega : t.length = 0), List.append_nil] at ht
    exact ⟨s.take (s.length - k), by rw [← ht, List.take_append_drop]⟩
  · rintro ⟨t, rfl⟩
    have hdrop : ∀ k ≤ c.utf8Size, (t ++ String.utf8EncodeChar c).drop
        ((t ++ String.utf8EncodeChar c).length - k)
        = (String.utf8EncodeChar c).drop (c.utf8Size - k) := by
      intro k hk
      rw [List.length_append, String.length_utf8EncodeChar, Nat.add_sub_assoc hk,
        List.drop_length_add_append]
    have hbefore : ∀ k, 0 < k → k < c.utf8Size → first ((t ++ String.utf8EncodeChar c).drop
        ((t ++ String.utf8EncodeChar c).length - k)) = none := by
      intro k hk hlt
      have hcut := (List.take_append_drop (c.utf8Size - k) (String.utf8EncodeChar c)).symm
      have := first_inside (s := []) hcut (List.ne_nil_of_length_pos (by simp; omega))
        (List.ne_nil_of_length_pos (by simp; omega))
      rwa [List.append_nil, ← hdrop k hlt.le] at this
    have hat : first ((t ++ String.utf8EncodeChar c).drop
        ((t ++ String.utf8EncodeChar c).length - c.utf8Size)) = some c :=
      first_eq_some.2 ⟨[], by rw [hdrop _ le_rfl, Nat.sub_self, List.drop_zero, List.append_nil]⟩
    -- The shorter ends are inside the character.
    rcases c.utf8Size_eq with h | h | h | h <;> rw [h] at hat hbefore <;>
      simp [last, hat, hbefore, h, -List.length_append]

/-! ## Taking characters away -/

/-- What every character taken away preserves. -/
theorem peel_induction {read : List UInt8 → Option Char}
    {cut : List UInt8 → Nat → List UInt8} {P : List UInt8 → Prop}
    (step : ∀ s c, read s = some c → p c → P s → P (cut s c.utf8Size)) (n : Nat) (s : List UInt8)
    (h : P s) : P (peel read cut p n s) := by
  induction n generalizing s with
  | zero => exact h
  | succ n ih =>
    unfold peel
    split
    · next c hc =>
      obtain ⟨hread, hp⟩ := Option.filter_eq_some_iff.1 hc
      exact ih _ (step s c hread hp h)
    · exact h

/-- Trimming keeps what every byte of the text satisfies. -/
theorem trim_subset : trim p s ⊆ s := by
  have hleft : trimLeft p s ⊆ s :=
    peel_induction (P := (· ⊆ s))
      (fun t c _ _ ht => List.Subset.trans (List.drop_subset _ t) ht) _ _ (List.Subset.refl s)
  exact peel_induction (P := (· ⊆ s))
    (fun t c _ _ ht => List.Subset.trans (List.take_subset _ t) ht) _ _ hleft

/-! ## Well-formed texts -/

theorem exists_cons_of_first (h : first (encode cs) = some c) :
    ∃ ds, cs = c :: ds ∧ (encode cs).drop c.utf8Size = encode ds := by
  cases cs with
  | nil => cases h
  | cons d ds =>
  have hd : first (encode (d :: ds)) = some d := first_eq_some.2 ⟨encode ds, encode_cons⟩
  obtain rfl : d = c := Option.some.inj (hd.symm.trans h)
  exact ⟨ds, rfl, by simp⟩

theorem exists_concat_of_last (h : last (encode cs) = some c) :
    ∃ ds, cs = ds ++ [c] ∧ (encode cs).rdrop c.utf8Size = encode ds := by
  rcases List.eq_nil_or_concat' cs with rfl | ⟨ds, d, rfl⟩
  · cases h
  · have hd : last (encode (ds ++ [d])) = some d := last_eq_some.2 ⟨encode ds, by simp⟩
    obtain rfl : d = c := Option.some.inj (hd.symm.trans h)
    exact ⟨ds, rfl, by simp [List.rdrop]⟩

theorem last_encode_ne_none (h : cs ≠ []) : ∃ c, last (encode cs) = some c := by
  obtain ⟨ds, c, rfl⟩ := (List.eq_nil_or_concat' cs).resolve_left h
  exact ⟨c, last_eq_some.2 ⟨encode ds, by simp⟩⟩

/-- A well-formed text is trimmed to some of its characters. -/
theorem trim_encode : ∃ ds, trim p (encode cs) = encode ds ∧ ds ⊆ cs := by
  have hleft : ∃ ds, trimLeft p (encode cs) = encode ds ∧ ds ⊆ cs := by
    refine peel_induction (P := fun t => ∃ ds, t = encode ds ∧ ds ⊆ cs) ?_ _ _
      ⟨cs, rfl, List.Subset.refl cs⟩
    rintro _ c hc - ⟨ds, rfl, hds⟩
    obtain ⟨es, rfl, hes⟩ := exists_cons_of_first hc
    exact ⟨es, hes, List.Subset.trans (List.subset_cons_self c es) hds⟩
  refine peel_induction (P := fun t => ∃ ds, t = encode ds ∧ ds ⊆ cs) ?_ _ _ hleft
  rintro _ c hc - ⟨ds, rfl, hds⟩
  obtain ⟨es, rfl, hes⟩ := exists_concat_of_last hc
  exact ⟨es, hes, List.Subset.trans (List.subset_append_left es [c]) hds⟩

end WatchTrace.Text

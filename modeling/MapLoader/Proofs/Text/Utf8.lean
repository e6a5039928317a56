import MapLoader.Text.Utf8

/-! Reading UTF-8 gives a text just from the bytes that this text is encoded to. All other bytes
are refused. -/

namespace MapLoader.Text

def utf8 (s : String) : List UInt8 := s.toList.flatMap String.utf8EncodeChar

/-- A first byte that asks for `n` bytes in all, and a second byte that may follow it. -/
def Leads (n : Nat) (a b : UInt8) : Prop :=
  ∃ low high, leadOf a = some (n, low, high) ∧ low ≤ b ∧ b ≤ high

theorem exists_row {m n : Nat} {low high b : UInt8} :
    (∃ l h, some (m, low, high) = some (n, l, h) ∧ l ≤ b ∧ b ≤ h) ↔
      n = m ∧ low ≤ b ∧ b ≤ high := by
  constructor
  · rintro ⟨_, _, ⟨rfl⟩, hb⟩
    exact ⟨rfl, hb⟩
  · rintro ⟨rfl, hb⟩
    exact ⟨low, high, rfl, hb⟩

/-- The rows of the table, with the second bytes that would give a number in too many bytes, half
of a surrogate pair or a number that is too large left out. -/
theorem leads_iff {n : Nat} {a b : UInt8} : Leads n a b ↔
    (n = 1 ∧ a.toNat < 0x80 ∧ b.toNat = 0) ∨
    (n = 2 ∧ 0xc2 ≤ a.toNat ∧ a.toNat < 0xe0 ∧ 0x80 ≤ b.toNat ∧ b.toNat < 0xc0) ∨
    (n = 3 ∧ 0xe0 ≤ a.toNat ∧ a.toNat < 0xf0 ∧ 0x80 ≤ b.toNat ∧ b.toNat < 0xc0 ∧
      (a.toNat = 0xe0 → 0xa0 ≤ b.toNat) ∧ (a.toNat = 0xed → b.toNat < 0xa0)) ∨
    (n = 4 ∧ 0xf0 ≤ a.toNat ∧ a.toNat ≤ 0xf4 ∧ 0x80 ≤ b.toNat ∧ b.toNat < 0xc0 ∧
      (a.toNat = 0xf0 → 0x90 ≤ b.toNat) ∧ (a.toNat = 0xf4 → b.toNat < 0x90)) := by
  unfold Leads leadOf
  repeat' split
  all_goals
    simp only [exists_row, reduceCtorEq, false_and, exists_false, false_iff]
    simp only [UInt8.lt_iff_toNat_lt, UInt8.le_iff_toNat_le, ← UInt8.toNat_inj,
      UInt8.reduceToNat] at *
    omega

theorem leads_two {a b : UInt8} (h : Leads 2 a b) :
    0xc2 ≤ a.toNat ∧ a.toNat < 0xe0 ∧ 0x80 ≤ b.toNat ∧ b.toNat < 0xc0 := by
  simpa using leads_iff.1 h

theorem leads_three {a b : UInt8} (h : Leads 3 a b) :
    0xe0 ≤ a.toNat ∧ a.toNat < 0xf0 ∧ 0x80 ≤ b.toNat ∧ b.toNat < 0xc0 ∧
      (a.toNat = 0xe0 → 0xa0 ≤ b.toNat) ∧ (a.toNat = 0xed → b.toNat < 0xa0) := by
  simpa using leads_iff.1 h

theorem leads_four {a b : UInt8} (h : Leads 4 a b) :
    0xf0 ≤ a.toNat ∧ a.toNat ≤ 0xf4 ∧ 0x80 ≤ b.toNat ∧ b.toNat < 0xc0 ∧
      (a.toNat = 0xf0 → 0x90 ≤ b.toNat) ∧ (a.toNat = 0xf4 → b.toNat < 0x90) := by
  simpa using leads_iff.1 h

theorem isContinuation_iff {b : UInt8} :
    isContinuation b = true ↔ 0x80 ≤ b.toNat ∧ b.toNat < 0xc0 := by
  unfold isContinuation
  simp only [Bool.and_eq_true, decide_eq_true_eq, UInt8.le_iff_toNat_le, UInt8.reduceToNat]
  omega

/-- The bytes of one character, with its number. -/
inductive Sequence : List UInt8 → Nat → Prop
  | one {a : UInt8} : a.toNat < 0x80 → Sequence [a] a.toNat
  | two {a b : UInt8} : Leads 2 a b → Sequence [a, b] (a.toNat % 32 * 64 + b.toNat % 64)
  | three {a b c : UInt8} : Leads 3 a b → isContinuation c = true →
      Sequence [a, b, c] (a.toNat % 16 * 4096 + b.toNat % 64 * 64 + c.toNat % 64)
  | four {a b c d : UInt8} : Leads 4 a b → isContinuation c = true → isContinuation d = true →
      Sequence [a, b, c, d]
        (a.toNat % 8 * 262144 + b.toNat % 64 * 4096 + c.toNat % 64 * 64 + d.toNat % 64)

theorem leadOf_ascii {a : UInt8} (h : a.toNat < 0x80) : leadOf a = some (1, 0, 0) :=
  if_pos (UInt8.lt_iff_toNat_lt.2 h)

theorem decodeFrom_sequence {bs : List UInt8} {n : Nat} (h : Sequence bs n) (start : Nat)
    (read : List Char) (rest : List UInt8) :
    decodeFrom start read (bs ++ rest) =
      decodeFrom (start + bs.length) (.ofNat n :: read) rest := by
  cases h with
  | one ha => simp [decodeFrom, leadOf_ascii ha]
  | two h =>
    obtain ⟨low, high, hl, hlow, hhigh⟩ := h
    simp [decodeFrom, hl, lowBits, UInt8.not_lt.2 hlow, UInt8.not_lt.2 hhigh]
  | three h hc =>
    obtain ⟨low, high, hl, hlow, hhigh⟩ := h
    simp [decodeFrom, hl, hc, lowBits, UInt8.not_lt.2 hlow, UInt8.not_lt.2 hhigh]
  | four h hc hd =>
    obtain ⟨low, high, hl, hlow, hhigh⟩ := h
    simp [decodeFrom, hl, hc, hd, lowBits, UInt8.not_lt.2 hlow, UInt8.not_lt.2 hhigh]

theorem leads_of_inside {n : Nat} {a b low high : UInt8} (hl : leadOf a = some (n, low, high))
    (hb : ¬ (decide (b < low) || decide (high < b)) = true) : Leads n a b := by
  simp only [Bool.or_eq_true, decide_eq_true_eq, not_or, UInt8.not_lt] at hb
  exact ⟨low, high, hl, hb.1, hb.2⟩

theorem toNat_lt_of_leadOf {a low high : UInt8} (h : leadOf a = some (1, low, high)) :
    a.toNat < 0x80 := by
  unfold leadOf at h
  split at h
  · exact UInt8.lt_iff_toNat_lt.1 ‹_›
  · repeat' split at h
    all_goals cases h

/-- What can be read begins with a whole character. -/
theorem exists_sequence {start : Nat} {read cs : List Char} {bs : List UInt8} (hbs : bs ≠ [])
    (h : decodeFrom start read bs = .ok cs) :
    ∃ seq n rest, Sequence seq n ∧ bs = seq ++ rest := by
  revert h
  fun_cases decodeFrom start read bs <;> intro h
  case case1 => exact absurd rfl hbs
  case case3 a rest _ _ hl => exact ⟨[a], _, rest, .one (toNat_lt_of_leadOf hl), rfl⟩
  case case6 a _ _ b rest hb _ hl =>
    exact ⟨[a, b], _, rest, .two (leads_of_inside hl hb), rfl⟩
  case case9 a _ _ b hb c rest hc _ hl _ =>
    exact ⟨[a, b, c], _, rest, .three (leads_of_inside hl hb) (by simpa using hc), rfl⟩
  case case12 a n _ _ hn1 hl b hb hn2 c hc hn3 d rest hd =>
    have hleads := leads_of_inside hl hb
    obtain rfl : n = 4 := by
      have hn := leads_iff.1 hleads
      have hn1 : n ≠ 1 := hn1
      omega
    exact ⟨[a, b, c, d], _, rest, .four hleads (by simpa using hc) (by simpa using hd), rfl⟩
  all_goals cases h

theorem toNat_ofNat_of_valid {n : Nat} (h : n.isValidChar) : (Char.ofNat n).toNat = n := by
  unfold Char.ofNat
  rw [dif_pos h]
  rfl

theorem ofNat_eq {n : Nat} {b : UInt8} (h : n = b.toNat) : UInt8.ofNat n = b := by
  rw [h, UInt8.ofNat_toNat]

theorem Sequence.valid {bs : List UInt8} {n : Nat} (h : Sequence bs n) : n.isValidChar := by
  unfold Nat.isValidChar
  cases h with
  | one h => omega
  | two h =>
    have hab := leads_two h
    omega
  | three h hc =>
    have hab := leads_three h
    have hc := isContinuation_iff.1 hc
    omega
  | four h hc hd =>
    have hab := leads_four h
    have hc := isContinuation_iff.1 hc
    have hd := isContinuation_iff.1 hd
    omega

/-- The bytes that are read as a character are those it is encoded to. -/
theorem Sequence.encode {bs : List UInt8} {n : Nat} (h : Sequence bs n) :
    String.utf8EncodeChar (.ofNat n) = bs := by
  have hn : (Char.ofNat n).val.toNat = n := toNat_ofNat_of_valid h.valid
  unfold String.utf8EncodeChar
  rw [hn]
  dsimp only
  cases h with
  | one h => rw [if_pos (by omega), UInt8.ofNat_toNat]
  | two h =>
    have hab := leads_two h
    rw [if_neg (by omega), if_pos (by omega)]
    simp only [List.cons.injEq, and_true]
    exact ⟨ofNat_eq (by omega), ofNat_eq (by omega)⟩
  | three h hc =>
    have hab := leads_three h
    have hc := isContinuation_iff.1 hc
    rw [if_neg (by omega), if_neg (by omega), if_pos (by omega)]
    simp only [List.cons.injEq, and_true]
    exact ⟨ofNat_eq (by omega), ofNat_eq (by omega), ofNat_eq (by omega)⟩
  | four h hc hd =>
    have hab := leads_four h
    have hc := isContinuation_iff.1 hc
    have hd := isContinuation_iff.1 hd
    rw [if_neg (by omega), if_neg (by omega), if_neg (by omega)]
    simp only [List.cons.injEq, and_true]
    exact ⟨ofNat_eq (by omega), ofNat_eq (by omega), ofNat_eq (by omega), ofNat_eq (by omega)⟩

theorem Sequence.of_eq {bs : List UInt8} {m n : Nat} (h : Sequence bs m) (hm : m = n) :
    Sequence bs n := hm ▸ h

theorem toNat_of_ofNat_eq {n : Nat} {b : UInt8} (h : UInt8.ofNat n = b) (hn : n < 0x100) :
    b.toNat = n := by
  rw [← h]
  exact UInt8.toNat_ofNat_of_lt' hn

theorem sequence_utf8EncodeChar (c : Char) : Sequence (String.utf8EncodeChar c) c.toNat := by
  have hv : c.toNat.isValidChar := c.valid
  unfold Nat.isValidChar at hv
  have hn : c.val.toNat = c.toNat := rfl
  unfold String.utf8EncodeChar
  rw [hn]
  dsimp only
  generalize c.toNat = n at hv ⊢
  split
  · generalize ha : UInt8.ofNat n = a
    have ha := toNat_of_ofNat_eq ha (by omega)
    exact (Sequence.one (by omega)).of_eq ha
  split
  · generalize ha : UInt8.ofNat (n / 64 % 32 + 192) = a
    generalize hb : UInt8.ofNat (n % 64 + 128) = b
    have ha := toNat_of_ofNat_eq ha (by omega)
    have hb := toNat_of_ofNat_eq hb (by omega)
    have hab : Leads 2 a b := leads_iff.2 (.inr (.inl (by omega)))
    exact (Sequence.two hab).of_eq (by omega)
  split
  · generalize ha : UInt8.ofNat (n / 4096 % 16 + 224) = a
    generalize hb : UInt8.ofNat (n / 64 % 64 + 128) = b
    generalize hc : UInt8.ofNat (n % 64 + 128) = c
    have ha := toNat_of_ofNat_eq ha (by omega)
    have hb := toNat_of_ofNat_eq hb (by omega)
    have hc := toNat_of_ofNat_eq hc (by omega)
    have hab : Leads 3 a b := leads_iff.2 (.inr (.inr (.inl (by omega))))
    exact (Sequence.three hab (isContinuation_iff.2 (by omega))).of_eq (by omega)
  · generalize ha : UInt8.ofNat (n / 262144 % 8 + 240) = a
    generalize hb : UInt8.ofNat (n / 4096 % 64 + 128) = b
    generalize hc : UInt8.ofNat (n / 64 % 64 + 128) = c
    generalize hd : UInt8.ofNat (n % 64 + 128) = d
    have ha := toNat_of_ofNat_eq ha (by omega)
    have hb := toNat_of_ofNat_eq hb (by omega)
    have hc := toNat_of_ofNat_eq hc (by omega)
    have hd := toNat_of_ofNat_eq hd (by omega)
    have hab : Leads 4 a b := leads_iff.2 (.inr (.inr (.inr (by omega))))
    exact (Sequence.four hab (isContinuation_iff.2 (by omega))
      (isContinuation_iff.2 (by omega))).of_eq (by omega)

theorem decodeFrom_utf8EncodeChar (c : Char) (start : Nat) (read : List Char)
    (rest : List UInt8) : ∃ next, decodeFrom start read (String.utf8EncodeChar c ++ rest) =
      decodeFrom next (c :: read) rest := by
  have h := decodeFrom_sequence (sequence_utf8EncodeChar c) start read rest
  rw [Char.ofNat_toNat] at h
  exact ⟨_, h⟩

theorem decodeFrom_encoded (start : Nat) (read cs : List Char) :
    decodeFrom start read (cs.flatMap String.utf8EncodeChar) = .ok (read.reverse ++ cs) := by
  induction cs generalizing start read with
  | nil => simp [decodeFrom]
  | cons c cs ih =>
    obtain ⟨next, hnext⟩ :=
      decodeFrom_utf8EncodeChar c start read (cs.flatMap String.utf8EncodeChar)
    rw [List.flatMap_cons, hnext, ih]
    simp

/-- What was read is what the bytes encode, by induction on their number. -/
theorem encoded_of_decodeFrom {start : Nat} {read cs : List Char} {bs : List UInt8}
    (h : decodeFrom start read bs = .ok cs) :
    ∃ t, cs = read.reverse ++ t ∧ bs = t.flatMap String.utf8EncodeChar := by
  by_cases hbs : bs = []
  · subst hbs
    rw [decodeFrom] at h
    cases h
    exact ⟨[], by simp, rfl⟩
  · obtain ⟨seq, n, rest, hseq, rfl⟩ := exists_sequence hbs h
    rw [decodeFrom_sequence hseq] at h
    have hlt : rest.length < (seq ++ rest).length := by
      have hpos : 0 < seq.length := by cases hseq <;> simp
      rw [List.length_append]
      omega
    obtain ⟨t, rfl, rfl⟩ := encoded_of_decodeFrom h
    exact ⟨.ofNat n :: t, by simp, by rw [List.flatMap_cons, hseq.encode]⟩
termination_by bs.length

/-- Bytes are read as a text just if they are the bytes of this text. -/
theorem decodeUtf8_eq_ok_iff {bs : List UInt8} {s : String} :
    decodeUtf8 bs = .ok s ↔ bs = utf8 s := by
  unfold decodeUtf8 utf8
  constructor
  · intro h
    cases hd : decodeFrom 0 [] bs with
    | error e =>
      rw [hd] at h
      cases h
    | ok cs =>
      rw [hd] at h
      cases h
      obtain ⟨t, rfl, ht⟩ := encoded_of_decodeFrom hd
      simpa using ht
  · rintro rfl
    rw [decodeFrom_encoded]
    simp [Except.map]

end MapLoader.Text

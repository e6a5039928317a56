import MapLoader.Proofs.Text.Grammar
import MapLoader.Row
import MapLoader.SortedMap.Lemmas

/-! Tags can be read back from their text. The text is a compact JSON object, the grammar reads it
in one way only, and this gives the tags again. -/

namespace MapLoader

namespace Json

theorem unescape?_of_mem {e c : Char} (h : (e, c) ∈ shortEscapes) : unescape? e = some c := by
  have hall : ∀ m ∈ shortEscapes, unescape? m.1 = some m.2 := by decide
  exact hall (e, c) h

/-- However a string is written, `readChars` reads it. -/
theorem readChars_of_spells {cs s rest : List Char} (h : Spells cs s rest) :
    readChars cs = some (s, rest) := by
  induction h with
  | close => rfl
  | plain hc hq hb _ ih => simp [readChars, hq, hb, Nat.not_lt.2 hc, ih]
  | @short e _ _ _ _ he _ ih =>
    have he := unescape?_of_mem he
    have hu : e ≠ 'u' := by
      rintro rfl
      cases he
    simp [readChars, he, hu, ih]
  | unit hn hh hl _ ih => simp [readChars, hn, hh, hl, ih]
  | pair hn hh hm hl _ ih => simp [readChars, hn, hh, hm, hl, ih]

/-- So no text is read as two strings, nor up to two places. -/
theorem Quoted.unique {cs rest rest' : List Char} {s t : String} (h : Quoted cs s rest)
    (h' : Quoted cs t rest') : s = t ∧ rest = rest' := by
  cases h with
  | mk h =>
    cases h' with
    | mk h' =>
      cases (readChars_of_spells h).symm.trans (readChars_of_spells h')
      exact ⟨rfl, rfl⟩

theorem readString_of_quoted {cs rest : List Char} {s : String} (h : Quoted cs s rest) :
    readString cs = some (s.toList, rest) := by
  cases h with
  | mk h => simpa [readString] using readChars_of_spells h

theorem unit?_control {n : Nat} (h : n < 0x20) :
    unit? '0' '0' (Nat.digitChar (n / 16)) (Nat.digitChar (n % 16)) = some n := by
  have hall : ∀ n < 0x20,
      unit? '0' '0' (Nat.digitChar (n / 16)) (Nat.digitChar (n % 16)) = some n := by decide
  exact hall n h

/-- A character is escaped with another one, with its number, or not at all. -/
theorem escapeChar_cases (c : Char) :
    (∃ e, (e, c) ∈ shortEscapes ∧ escapeChar c = ['\\', e]) ∨
    (c.toNat < 0x20 ∧ escapeChar c =
      ['\\', 'u', '0', '0', Nat.digitChar (c.toNat / 16), Nat.digitChar (c.toNat % 16)]) ∨
    (0x20 ≤ c.toNat ∧ c ≠ '"' ∧ c ≠ '\\' ∧ escapeChar c = [c]) := by
  unfold escapeChar
  iterate 7
    split
    · rename_i h
      subst h
      exact .inl ⟨_, by decide, rfl⟩
  split
  · rename_i hc
    exact .inr (.inl ⟨hc, rfl⟩)
  · rename_i hq hb _ _ _ _ _ hc
    exact .inr (.inr ⟨Nat.not_lt.1 hc, hq, hb, rfl⟩)

theorem spells_escapeChar (c : Char) {cs s rest : List Char} (h : Spells cs s rest) :
    Spells (escapeChar c ++ cs) (c :: s) rest := by
  obtain ⟨e, hm, he⟩ | ⟨hc, he⟩ | ⟨hc, hq, hb, he⟩ := escapeChar_cases c <;> rw [he]
  · exact .short hm h
  · have hhigh : isHighUnit c.toNat = false := by simp [isHighUnit]; omega
    have hlow : isLowUnit c.toNat = false := by simp [isLowUnit]; omega
    have hu := Spells.unit (unit?_control hc) hhigh hlow h
    rwa [Char.ofNat_toNat] at hu
  · exact .plain hc hq hb h

theorem spells_escape (s rest : List Char) :
    Spells (s.flatMap escapeChar ++ '"' :: rest) s rest := by
  induction s with
  | nil => exact .close
  | cons c s ih =>
    rw [List.flatMap_cons, List.append_assoc]
    exact spells_escapeChar c ih

theorem quoted_encodeString (s : String) (rest : List Char) :
    Quoted (encodeString s.toList ++ rest) s rest := by
  have h := Quoted.mk (spells_escape s.toList rest)
  rw [String.ofList_toList] at h
  simpa [encodeString] using h

theorem printable_escapeChar (c : Char) : ∀ d ∈ escapeChar c, 0x20 ≤ d.toNat := by
  obtain ⟨e, hm, he⟩ | ⟨hc, he⟩ | ⟨hc, -, -, he⟩ := escapeChar_cases c <;> rw [he]
  · have hall : ∀ m ∈ shortEscapes, 0x20 ≤ m.1.toNat := by decide
    simpa using hall (e, c) hm
  · have hall : ∀ n < 0x20, 0x20 ≤ (Nat.digitChar (n / 16)).toNat ∧
        0x20 ≤ (Nat.digitChar (n % 16)).toNat := by decide
    simpa using hall c.toNat hc
  · simpa using hc

theorem printable_encodeString (s : List Char) : ∀ c ∈ encodeString s, 0x20 ≤ c.toNat := by
  simp only [encodeString, List.cons_append, List.mem_cons, List.mem_append, List.mem_flatMap,
    List.not_mem_nil, or_false]
  rintro c (rfl | ⟨d, -, hc⟩ | rfl)
  · decide
  · exact printable_escapeChar d c hc
  · decide

theorem printable_encodeMember (m : String × String) :
    ∀ c ∈ encodeMember m, 0x20 ≤ c.toNat := by
  simp only [encodeMember, List.mem_append, List.mem_cons]
  rintro c (hc | rfl | hc)
  · exact printable_encodeString _ c hc
  · decide
  · exact printable_encodeString _ c hc

theorem printable_encodeObject (ms : List (String × String)) :
    ∀ c ∈ encodeObject ms, 0x20 ≤ c.toNat := by
  have hmembers : ∀ c ∈ [','].intercalate (ms.map encodeMember), 0x20 ≤ c.toNat := by
    induction ms with
    | nil => simp
    | cons m ms ih =>
      cases ms with
      | nil => simpa using printable_encodeMember m
      | cons n ms =>
        simp only [List.map_cons, List.intercalate_cons_cons, List.mem_append,
          List.mem_singleton] at ih ⊢
        rintro c ((hc | rfl) | hc)
        · exact printable_encodeMember m c hc
        · decide
        · exact ih c hc
  simp only [encodeObject, List.mem_cons, List.mem_append, List.not_mem_nil, or_false]
  rintro c (rfl | hc | rfl)
  · decide
  · exact hmembers c hc
  · decide

def membersText (ms : List (String × String)) (rest : List Char) : List Char :=
  [','].intercalate (ms.map encodeMember) ++ '\x7d' :: rest

theorem membersText_singleton (m : String × String) (rest : List Char) :
    membersText [m] rest = encodeMember m ++ '\x7d' :: rest := by
  simp [membersText]

theorem membersText_cons_cons (m n : String × String) (ms : List (String × String))
    (rest : List Char) :
    membersText (m :: n :: ms) rest = encodeMember m ++ ',' :: membersText (n :: ms) rest := by
  simp [membersText, List.intercalate_cons_cons]

theorem exists_membersText_cons (m : String × String) (ms : List (String × String))
    (rest : List Char) : ∃ cs, membersText (m :: ms) rest = '"' :: cs := by
  cases ms with
  | nil => exact ⟨_, membersText_singleton m rest⟩
  | cons n ms => exact ⟨_, membersText_cons_cons m n ms rest⟩

def quoteMember (m : String × String) : String × Value := (m.1, .string m.2)

section Reading

variable {blank : Char → Prop}

theorem readsMember_encodeMember (m : String × String) (rest : List Char) :
    ReadsMember blank (encodeMember m ++ rest) (quoteMember m) rest := by
  have hk := quoted_encodeString m.1 (':' :: (encodeString m.2.toList ++ rest))
  have hv := quoted_encodeString m.2 rest
  have h : ReadsMember blank _ (m.1, .string m.2) rest :=
    .mk .done hk .done .done (.string hv) .done
  simpa [encodeMember, quoteMember] using h

theorem readsMembers_membersText (m : String × String) (ms : List (String × String))
    (rest : List Char) :
    ReadsMembers blank (membersText (m :: ms) rest) ((m :: ms).map quoteMember) rest := by
  induction ms generalizing m with
  | nil =>
    rw [membersText_singleton]
    exact .last (readsMember_encodeMember m _)
  | cons n ms ih =>
    rw [membersText_cons_cons]
    exact .more (readsMember_encodeMember m _) (ih n)

/-- The text of an object is read as this object even where no white space is allowed. -/
theorem reads_encodeObject (ms : List (String × String)) :
    Reads blank (encodeObject ms) (.object (ms.map quoteMember)) [] := by
  cases ms with
  | nil => exact .noMembers .done
  | cons m ms => exact .object (readsMembers_membersText m ms [])

end Reading

theorem Skips.stays {blank : Char → Prop} {c : Char} {cs rest : List Char}
    (h : Skips blank (c :: cs) rest) (hc : ¬ blank c) : rest = c :: cs := by
  cases h with
  | done => rfl
  | skip hb _ => exact absurd hb hc

theorem not_isBlank_of_mem {c : Char} (h : c ∈ ['"', ':', ',', '\x7b', '\x7d']) :
    ¬ IsBlank c := by
  unfold IsBlank
  simp only [List.mem_cons, List.not_mem_nil, or_false] at h
  rcases h with rfl | rfl | rfl | rfl | rfl <;> decide

theorem Numeral.head {n : List Char} (h : Numeral n) :
    ∃ c cs, n = c :: cs ∧ c ≠ '"' ∧ c ≠ '\x7b' := by
  obtain @⟨minus, whole, fraction, exponent, hm, hw, -, -⟩ := h
  rcases hm with rfl | rfl
  · cases hw with
    | zero => exact ⟨'0', _, rfl, by decide, by decide⟩
    | @digits d ds hlow hhigh _ =>
      refine ⟨d, _, rfl, ?_, ?_⟩ <;> rintro rfl
      · exact absurd hlow (by decide)
      · exact absurd hhigh (by decide)
  · exact ⟨'-', _, rfl, by decide, by decide⟩

theorem Reads.quoted {blank : Char → Prop} {cs rest : List Char} {v : Value}
    (h : Reads blank ('"' :: cs) v rest) : ∃ s, v = .string s ∧ Quoted ('"' :: cs) s rest := by
  generalize ht : '"' :: cs = text at h
  cases h with
  | string h => exact ⟨_, rfl, h⟩
  | number hn =>
    obtain ⟨c, ds, rfl, hc, -⟩ := hn.head
    cases ht
    exact absurd rfl hc
  | null | true | false | noItems | array | noMembers | object => simp at ht

theorem Reads.braced {blank : Char → Prop} {cs rest : List Char} {v : Value}
    (h : Reads blank ('\x7b' :: cs) v rest) :
    (v = .object [] ∧ Skips blank cs ('\x7d' :: rest)) ∨
      ∃ members, v = .object members ∧ ReadsMembers blank cs members rest := by
  generalize ht : '\x7b' :: cs = text at h
  cases h with
  | noMembers h => cases ht; exact .inl ⟨rfl, h⟩
  | object h => cases ht; exact .inr ⟨_, rfl, h⟩
  | string h => cases h; simp at ht
  | number hn =>
    obtain ⟨c, ds, rfl, -, hc⟩ := hn.head
    cases ht
    exact absurd rfl hc
  | null | true | false | noItems | array => simp at ht

theorem ReadsMember.unique {m : String × String} {n : String × Value} {c : Char}
    {cs rest : List Char} (h : ReadsMember IsBlank (encodeMember m ++ c :: cs) n rest)
    (hc : ¬ IsBlank c) : n = quoteMember m ∧ rest = c :: cs := by
  have htext : encodeMember m ++ c :: cs =
      encodeString m.1.toList ++ ':' :: (encodeString m.2.toList ++ c :: cs) := by
    simp [encodeMember]
  rw [htext] at h
  cases h with
  | mk hbefore hkey hcolon hafter hvalue hend =>
    cases hbefore.stays (not_isBlank_of_mem (by simp))
    obtain ⟨rfl, rfl⟩ := hkey.unique (quoted_encodeString m.1 _)
    cases hcolon.stays (not_isBlank_of_mem (by simp))
    cases hafter.stays (not_isBlank_of_mem (by simp))
    obtain ⟨s, rfl, hs⟩ := hvalue.quoted
    obtain ⟨rfl, rfl⟩ := hs.unique (quoted_encodeString m.2 _)
    exact ⟨rfl, hend.stays hc⟩

theorem not_readsMembers_brace {ns : List (String × Value)} {cs rest : List Char} :
    ¬ ReadsMembers IsBlank ('\x7d' :: cs) ns rest := by
  have hmember : ∀ (n : String × Value) (out : List Char),
      ¬ ReadsMember IsBlank ('\x7d' :: cs) n out := by
    rintro n out ⟨hbefore, hkey, -, -, -, -⟩
    cases hbefore.stays (not_isBlank_of_mem (by simp))
    cases hkey
  intro h
  cases h with
  | last h => exact hmember _ _ h
  | more h _ => exact hmember _ _ h

theorem ReadsMembers.unique {m : String × String} {ms : List (String × String)}
    {ns : List (String × Value)} {cs rest : List Char}
    (h : ReadsMembers IsBlank (membersText (m :: ms) cs) ns rest) :
    ns = (m :: ms).map quoteMember ∧ rest = cs := by
  induction ms generalizing m ns with
  | nil =>
    rw [membersText_singleton] at h
    cases h with
    | last h =>
      obtain ⟨rfl, he⟩ := h.unique (not_isBlank_of_mem (by simp))
      cases he
      exact ⟨rfl, rfl⟩
    | more h _ =>
      obtain ⟨-, he⟩ := h.unique (not_isBlank_of_mem (by simp))
      cases he
  | cons n ms ih =>
    rw [membersText_cons_cons] at h
    cases h with
    | last h =>
      obtain ⟨-, he⟩ := h.unique (not_isBlank_of_mem (by simp))
      cases he
    | more h hrest =>
      obtain ⟨rfl, he⟩ := h.unique (not_isBlank_of_mem (by simp))
      cases he
      obtain ⟨rfl, rfl⟩ := ih hrest
      exact ⟨rfl, rfl⟩

/-- Even where white space is allowed, the text of an object has no other reading. -/
theorem denotes_encodeObject_iff {ms : List (String × String)} {v : Value} :
    Denotes (encodeObject ms) v ↔ v = .object (ms.map quoteMember) := by
  refine ⟨fun h => ?_, fun h => ⟨_, _, .done, h ▸ reads_encodeObject ms, .done⟩⟩
  obtain ⟨a, b, hbefore, hv, -⟩ := h
  cases hbefore.stays (not_isBlank_of_mem (by simp))
  obtain ⟨rfl, hend⟩ | ⟨ns, rfl, hns⟩ := hv.braced
  · cases ms with
    | nil => rfl
    | cons m ms =>
      obtain ⟨cs, hcs⟩ := exists_membersText_cons m ms []
      rw [membersText] at hcs
      rw [hcs] at hend
      cases hend.stays (not_isBlank_of_mem (by simp))
  · cases ms with
    | nil => exact absurd hns not_readsMembers_brace
    | cons m ms => exact congrArg Value.object (ReadsMembers.unique hns).1

theorem readMember_encodeMember (m : String × String) (rest : List Char) :
    readMember (encodeMember m ++ rest) = some (m, rest) := by
  have hk := readString_of_quoted
    (quoted_encodeString m.1 (':' :: (encodeString m.2.toList ++ rest)))
  have hv := readString_of_quoted (quoted_encodeString m.2 rest)
  simp [readMember, encodeMember, hk, hv]

theorem readMembers_of_readMember {cs rest : List Char} {m : String × String} {c : Char}
    (h : readMember cs = some (m, c :: rest)) :
    readMembers cs =
      if c = '\x7d' then some ([m], rest)
      else if c = ',' then (readMembers rest).map fun (ms, rest) => (m :: ms, rest)
      else none := by
  rw [readMembers]
  split <;> rename_i hr <;> rw [h] at hr <;> cases hr
  rfl

theorem readMembers_membersText (m : String × String) (ms : List (String × String))
    (rest : List Char) : readMembers (membersText (m :: ms) rest) = some (m :: ms, rest) := by
  induction ms generalizing m with
  | nil =>
    have hm := readMember_encodeMember m ('\x7d' :: rest)
    rw [membersText_singleton, readMembers_of_readMember hm, if_pos rfl]
  | cons n ms ih =>
    have hm := readMember_encodeMember m (',' :: membersText (n :: ms) rest)
    rw [membersText_cons_cons, readMembers_of_readMember hm, if_neg (by decide), if_pos rfl, ih]
    rfl

theorem decodeObject?_encodeObject (ms : List (String × String)) :
    decodeObject? (encodeObject ms) = some ms := by
  cases ms with
  | nil => rfl
  | cons m ms =>
    have hr := readMembers_membersText m ms []
    obtain ⟨cs, hcs⟩ := exists_membersText_cons m ms []
    have htext : encodeObject (m :: ms) = '\x7b' :: membersText (m :: ms) [] := rfl
    rw [htext, hcs, decodeObject?, ← hcs, hr]
    simp

end Json

namespace Tags

/-- The text of tags is an object of JSON with their keys in ascending order, without white space
or raw control characters. The format allows no other reading of it, a decoder gets exactly these
tags from it, and no other tags have this text. -/
theorem text_decodes (tags : Tags) :
    let text := tags.text.toList
    let object := Json.Value.object (tags.toList.map fun m => (m.1, .string m.2))
    Json.DenotesCompactly text object ∧
    (∀ c ∈ text, 0x20 ≤ c.toNat) ∧
    tags.keys.Pairwise (· < ·) ∧
    (∀ v, Json.Denotes text v ↔ v = object) ∧
    (Json.decodeObject? text).map SortedMap.ofList = some tags ∧
    ∀ other : Tags, other.text = tags.text → other = tags := by
  have htext : tags.text.toList = Json.encodeObject tags.toList := by
    rw [Tags.text, String.toList_ofList]
  have hdecode : ∀ t : Tags, (Json.decodeObject? t.text.toList).map SortedMap.ofList = some t := by
    intro t
    rw [Tags.text, String.toList_ofList, Json.decodeObject?_encodeObject]
    exact congrArg some t.ofList_toList
  dsimp only
  rw [htext]
  refine ⟨Json.reads_encodeObject _, Json.printable_encodeObject _, ?_,
    fun v => Json.denotes_encodeObject_iff, htext ▸ hdecode tags, fun other ho => ?_⟩
  · exact tags.pairwise_keys.imp compareOfLessAndEq_eq_lt.1
  · have h := hdecode other
    rw [ho, hdecode tags] at h
    exact (Option.some.inj h).symm

end Tags
end MapLoader

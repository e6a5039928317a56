import Mathlib.Data.List.Forall2
import MapLoader.Config.Settings
import MapLoader.Proofs.Text.Blank

/-! What is accepted for a load is accepted just if nothing is wrong with it, and otherwise the
first field with something wrong is reported. What can be wrong is said here without the code
that looks for it. -/

namespace MapLoader

namespace Text

/-- The text is the word, with each of its letters small or capital. -/
def AnyCase (word text : String) : Prop :=
  List.Forall₂ (fun l c => c = l ∨ c = l.toUpper) word.toList text.toList

theorem toNat_toLower (c : Char) : c.toLower.toNat =
    if 65 ≤ c.toNat ∧ c.toNat ≤ 90 then c.toNat + 32 else c.toNat := by
  have hbound : c.val ≥ 'A'.val ∧ c.val ≤ 'Z'.val ↔ 65 ≤ c.toNat ∧ c.toNat ≤ 90 := Iff.rfl
  split
  case isTrue h =>
    have hchar : c.toLower = ⟨c.val + ('a'.val - 'A'.val), _⟩ := dif_pos (hbound.2 h)
    calc c.toLower.toNat = (c.toNat + 32) % 2 ^ 32 := by
          rw [hchar]
          exact UInt32.toNat_add _ _
      _ = c.toNat + 32 := Nat.mod_eq_of_lt (by omega)
  case isFalse h => exact congrArg Char.toNat (dif_neg (mt hbound.1 h))

theorem toNat_toUpper (c : Char) : c.toUpper.toNat =
    if 97 ≤ c.toNat ∧ c.toNat ≤ 122 then c.toNat - 32 else c.toNat := by
  have hbound : 'a'.val ≤ c.val ∧ c.val ≤ 'z'.val ↔ 97 ≤ c.toNat ∧ c.toNat ≤ 122 := Iff.rfl
  have hshift : ('A'.val - 'a'.val).toNat = 2 ^ 32 - 32 := by decide
  split
  case isTrue h =>
    have hchar : c.toUpper = ⟨c.val + ('A'.val - 'a'.val), _⟩ := dif_pos (hbound.2 h)
    calc c.toUpper.toNat = (c.toNat + (2 ^ 32 - 32)) % 2 ^ 32 := by
          rw [hchar, ← Char.toNat_val, UInt32.toNat_add, hshift, Char.toNat_val]
      _ = c.toNat - 32 := by omega
  case isFalse h => exact congrArg Char.toNat (dif_neg (mt hbound.1 h))

theorem toLower_eq_iff {l c : Char} (hl : 97 ≤ l.toNat ∧ l.toNat ≤ 122) :
    c.toLower = l ↔ c = l ∨ c = l.toUpper := by
  rw [← Char.toNat_inj, ← Char.toNat_inj, ← Char.toNat_inj, toNat_toLower, toNat_toUpper,
    if_pos hl]
  split <;> omega

theorem toList_toLower (s : String) : s.toLower.toList = s.toList.map Char.toLower :=
  String.toList_map

theorem forall₂_letters_iff {letters cs : List Char}
    (h : ∀ l ∈ letters, 97 ≤ l.toNat ∧ l.toNat ≤ 122) :
    List.Forall₂ (fun l c => c = l ∨ c = l.toUpper) letters cs ↔
      cs.map Char.toLower = letters := by
  induction letters generalizing cs with
  | nil => simp
  | cons l letters ih =>
    obtain ⟨hl, hrest⟩ := List.forall_mem_cons.1 h
    cases cs with
    | nil => simp
    | cons c cs => simp [List.forall₂_cons, ih hrest, toLower_eq_iff hl]

end Text

namespace ElementKind

open Text

def word : ElementKind → String
  | node => "node"
  | way => "way"
  | relation => "relation"

/-- An entry that names a kind, in any case and between blanks. -/
def NamedBy (k : ElementKind) (entry : String) : Prop := ∃ t, Trims entry t ∧ AnyCase k.word t

theorem toLower_name (k : ElementKind) : k.name.toLower = k.word := by
  rw [← String.toList_inj, toList_toLower]
  cases k <;> decide

theorem word_letters (k : ElementKind) : ∀ l ∈ k.word.toList, 97 ≤ l.toNat ∧ l.toNat ≤ 122 := by
  cases k <;> simp [word]

theorem sameWord_name_iff {k : ElementKind} {s : String} :
    sameWord k.name s = true ↔ AnyCase k.word s := by
  rw [sameWord, toLower_name, beq_iff_eq, AnyCase, forall₂_letters_iff k.word_letters,
    ← String.toList_inj, toList_toLower, eq_comm]

theorem eq_of_anyCase {k l : ElementKind} {s : String} (hk : AnyCase k.word s)
    (hl : AnyCase l.word s) : k = l := by
  rw [AnyCase, forall₂_letters_iff (word_letters _)] at hk hl
  have hword := hk.symm.trans hl
  revert hword
  cases k <;> cases l <;> decide

theorem parse_of_anyCase {k : ElementKind} {s : String} (h : AnyCase k.word s) :
    parse s = .ok k := by
  rw [parse]
  cases hfind : all.find? fun k => sameWord k.name s with
  | none => exact absurd (sameWord_name_iff.2 h) (List.find?_eq_none.1 hfind k (mem_all k))
  | some l =>
    have hl := sameWord_name_iff.1 (by simpa using List.find?_some hfind)
    rw [eq_of_anyCase hl h]

theorem parse_of_not_anyCase {s : String} (h : ∀ k : ElementKind, ¬ AnyCase k.word s) :
    parse s = .error (.unknownKind s) := by
  have hnone : (all.find? fun k => sameWord k.name s) = none :=
    List.find?_eq_none.2 fun k _ => mt sameWord_name_iff.1 (h k)
  rw [parse, hnone]

end ElementKind

open Text

/-- An entry that may stand in a list of kinds. -/
def Readable (entry : String) : Prop :=
  Trims entry "" ∨ ∃ k : ElementKind, k.NamedBy entry

/-- An entry that may not, and what it is without the blanks around it. -/
def Unreadable (entry t : String) : Prop :=
  Trims entry t ∧ t ≠ "" ∧ ∀ k : ElementKind, ¬ AnyCase k.word t

theorem namedBy_iff {k : ElementKind} {entry : String} :
    k.NamedBy entry ↔ AnyCase k.word (trim entry) := by
  simp [ElementKind.NamedBy, trims_iff]

theorem Text.AnyCase.ne_empty {k : ElementKind} {s : String} (h : AnyCase k.word s) : s ≠ "" := by
  rintro rfl
  cases k <;> cases h

/-- An entry is blank, names one kind, or may not stand in a list. -/
theorem entry_cases (entry : String) :
    trim entry = "" ∨ (∃ k : ElementKind, AnyCase k.word (trim entry)) ∨
      Unreadable entry (trim entry) := by
  by_cases hblank : trim entry = ""
  · exact .inl hblank
  by_cases hnamed : ∃ k : ElementKind, AnyCase k.word (trim entry)
  · exact .inr (.inl hnamed)
  · exact .inr (.inr ⟨trims_trim entry, hblank, not_exists.1 hnamed⟩)

theorem readable_iff {entry : String} :
    Readable entry ↔ trim entry = "" ∨ ∃ k : ElementKind, AnyCase k.word (trim entry) := by
  simp [Readable, namedBy_iff, trims_iff, @eq_comm _ ""]

theorem Unreadable.not_readable {entry t : String} (h : Unreadable entry t) : ¬ Readable entry := by
  obtain ⟨ht, hblank, hnamed⟩ := h
  obtain rfl := ht.eq_trim
  simp [readable_iff, hblank, hnamed]

section Entries

variable {entry : String} (rest : List String)

theorem parseKinds_blank (h : trim entry = "") : parseKinds (entry :: rest) = parseKinds rest := by
  simp [parseKinds, h]

theorem parseKinds_named {k : ElementKind} (h : AnyCase k.word (trim entry)) :
    parseKinds (entry :: rest) = (parseKinds rest).map (k :: ·) := by
  simp [parseKinds, h.ne_empty, parseWords, ElementKind.parse_of_anyCase h]

theorem parseKinds_unreadable {t : String} (h : Unreadable entry t) :
    parseKinds (entry :: rest) = .error (.unknownKind t) := by
  obtain ⟨ht, hblank, hnamed⟩ := h
  obtain rfl := ht.eq_trim
  simp [parseKinds, hblank, parseWords, ElementKind.parse_of_not_anyCase hnamed]

end Entries

/-- A list is read if every entry may stand there, and else stops at the first that may not. -/
theorem parseKinds_cases (entries : List String) :
    (∃ kinds, parseKinds entries = .ok kinds ∧ (∀ entry ∈ entries, Readable entry) ∧
      ∀ k, k ∈ kinds ↔ ∃ entry ∈ entries, k.NamedBy entry) ∨
    ∃ before entry after t, entries = before ++ entry :: after ∧ (∀ b ∈ before, Readable b) ∧
      Unreadable entry t ∧ parseKinds entries = .error (.unknownKind t) := by
  induction entries with
  | nil => exact .inl ⟨[], rfl, List.forall_mem_nil _, by simp⟩
  | cons entry rest ih =>
    rcases entry_cases entry with hblank | ⟨l, hl⟩ | hbad
    · have hentry := readable_iff.2 (.inl hblank)
      have hnot (k : ElementKind) : ¬ k.NamedBy entry := fun hk =>
        (namedBy_iff.1 hk).ne_empty hblank
      rw [parseKinds_blank rest hblank]
      obtain ⟨kinds, hok, hrest, hmem⟩ | ⟨before, bad, after, t, rfl, hbefore, hbad, herror⟩ := ih
      · exact .inl ⟨kinds, hok, List.forall_mem_cons.2 ⟨hentry, hrest⟩,
          fun k => by simp [hmem, hnot]⟩
      · exact .inr ⟨entry :: before, bad, after, t, rfl,
          List.forall_mem_cons.2 ⟨hentry, hbefore⟩, hbad, herror⟩
    · have hentry := readable_iff.2 (.inr ⟨l, hl⟩)
      have hnamed (k : ElementKind) : k.NamedBy entry ↔ k = l := by
        rw [namedBy_iff]
        exact ⟨fun hk => ElementKind.eq_of_anyCase hk hl, fun hk => hk ▸ hl⟩
      rw [parseKinds_named rest hl]
      obtain ⟨kinds, hok, hrest, hmem⟩ | ⟨before, bad, after, t, rfl, hbefore, hbad, herror⟩ := ih
      · exact .inl ⟨l :: kinds, by rw [hok]; rfl, List.forall_mem_cons.2 ⟨hentry, hrest⟩,
          fun k => by simp [hmem, hnamed]⟩
      · exact .inr ⟨entry :: before, bad, after, t, rfl,
          List.forall_mem_cons.2 ⟨hentry, hbefore⟩, hbad, by rw [herror]; rfl⟩
    · exact .inr ⟨[], entry, rest, _, rfl, List.forall_mem_nil _, hbad,
        parseKinds_unreadable rest hbad⟩

theorem parseKinds_ok {entries : List String} {kinds : List ElementKind}
    (h : parseKinds entries = .ok kinds) : (∀ entry ∈ entries, Readable entry) ∧
      ∀ k, k ∈ kinds ↔ ∃ entry ∈ entries, k.NamedBy entry := by
  obtain ⟨ks, hok, hall⟩ | ⟨_, _, _, _, _, _, _, herror⟩ := parseKinds_cases entries
  · obtain rfl := Except.ok.inj (hok.symm.trans h)
    exact hall
  · cases herror.symm.trans h

/-- The entry that a list stops at can be told from the list alone. -/
theorem parseKinds_of_unreadable {before : List String} {entry t : String}
    (hbefore : ∀ b ∈ before, Readable b) (hbad : Unreadable entry t) (after : List String) :
    parseKinds (before ++ entry :: after) = .error (.unknownKind t) := by
  induction before with
  | nil => exact parseKinds_unreadable after hbad
  | cons b before ih =>
    obtain ⟨hb, hrest⟩ := List.forall_mem_cons.1 hbefore
    rcases readable_iff.1 hb with hblank | ⟨k, hk⟩
    · rw [List.cons_append, parseKinds_blank _ hblank, ih hrest]
    · rw [List.cons_append, parseKinds_named _ hk, ih hrest]
      rfl

namespace LoadArguments

def number? (a : LoadArguments) : LoadField → Option Nat
  | .rowThreshold => a.rowThreshold
  | .commitThreshold => a.commitThreshold
  | .memberCommitThreshold => a.memberCommitThreshold
  | .channelCapacity => a.channelCapacity
  | _ => none

/-- Arguments that a load can be run with. -/
structure Valid (a : LoadArguments) : Prop where
  extract : a.extract ≠ none
  database : a.database ≠ none
  numbers : ∀ f, a.number? f ≠ some 0
  kinds : ∀ entries, a.kinds = some entries → ∀ entry ∈ entries, Readable entry

/-- Something is wrong with a field, and the error says what. In a list of kinds it is the first
entry that may not stand there. -/
inductive Faulty (a : LoadArguments) : LoadField → SettingsError → Prop
  | extract : a.extract = none → Faulty a .extract (.missing .extract "OSMLOAD_CMDS_LOAD_OSM_PBF")
  | database : a.database = none →
    Faulty a .database (.missing .database "OSMLOAD_CMDS_LOAD_DATABASE")
  | number {f : LoadField} : a.number? f = some 0 → Faulty a f (.notPositive f)
  | kinds {before after : List String} {entry t : String} :
    a.kinds = some (before ++ entry :: after) → (∀ b ∈ before, Readable b) →
    Unreadable entry t → Faulty a .kinds (.unknownKind t)

/-- The order in which the fields are looked at. -/
def checks : List LoadField :=
  [.extract, .database, .rowThreshold, .commitThreshold, .memberCommitThreshold,
    .channelCapacity, .kinds]

/-- The error is about the first field that something is wrong with. -/
def FirstFault (a : LoadArguments) (e : SettingsError) : Prop :=
  ∃ before f after, checks = before ++ f :: after ∧ (∀ g ∈ before, ∀ e, ¬ Faulty a g e) ∧
    Faulty a f e

/-- What settings are, given the arguments that they come from. -/
structure Yields (a : LoadArguments) (s : LoadSettings) : Prop where
  extract : a.extract = some s.extract
  database : a.database = some s.database
  row : s.options.thresholds.row = a.rowThreshold.getD 10000
  commit : s.options.thresholds.commit = a.commitThreshold.getD 1000000
  memberCommit : s.options.thresholds.memberCommit =
    a.memberCommitThreshold.getD (min (5 * s.options.thresholds.row) maxUInt64)
  channelCapacity : s.options.channelCapacity = a.channelCapacity.getD 4096
  positive : 0 < s.options.thresholds.row ∧ 0 < s.options.thresholds.commit ∧
    0 < s.options.thresholds.memberCommit ∧ 0 < s.options.channelCapacity
  includes : ∀ k, s.options.filter.includes k = true ↔
    ∀ entries, a.kinds = some entries → ∃ entry ∈ entries, k.NamedBy entry
  counterReset : s.options.counterReset = .global
  skipIndexes : s.skipIndexes = a.skipIndexes

end LoadArguments

/-- The error that a check ends with, if it does. -/
def refusal? {ε α : Type} : Except ε α → Option ε
  | .ok _ => none
  | .error e => some e

section Refusal

variable {ε α β γ : Type}

theorem refusal?_eq_some_iff {x : Except ε α} {e : ε} : refusal? x = some e ↔ x = .error e := by
  cases x <;> simp [refusal?]

theorem refusal?_bind {x : Except ε α} {f : α → Except ε β} {found : γ → Option ε} {c : γ}
    {rest : List γ} (hx : refusal? x = found c)
    (hf : ∀ v, refusal? (f v) = rest.findSome? found) :
    refusal? (x >>= f) = (c :: rest).findSome? found := by
  rw [List.findSome?_cons, ← hx]
  cases x with
  | ok v => exact hf v
  | error e => rfl

theorem bind_eq_ok_iff {x : Except ε α} {f : α → Except ε β} {b : β} :
    x >>= f = .ok b ↔ ∃ v, x = .ok v ∧ f v = .ok b := by
  cases x with
  | ok v => simp [bind, Except.bind]
  | error e => simp [bind, Except.bind]

end Refusal

theorem given_eq_ok_iff {f : LoadField} {variableName : String} {v : Option String} {s : String} :
    given f variableName v = .ok s ↔ v = some s := by
  cases v <;> simp [given]

theorem refusal?_given {f : LoadField} {variableName : String} {v : Option String}
    {e : SettingsError} :
    refusal? (given f variableName v) = some e ↔ v = none ∧ e = .missing f variableName := by
  cases v <;> simp [given, refusal?, @eq_comm _ e]

theorem positiveOr_eq_ok_iff {f : LoadField} {fallback n : Nat} {v : Option Nat} :
    positiveOr f fallback v = .ok n ↔ v ≠ some 0 ∧ n = v.getD fallback := by
  rcases v with _ | _ | m <;> simp [positiveOr, @eq_comm _ n]

theorem refusal?_positiveOr {f : LoadField} {fallback : Nat} {v : Option Nat} :
    refusal? (positiveOr f fallback v) = if v = some 0 then some (.notPositive f) else none := by
  rcases v with _ | _ | m <;> simp [positiveOr, refusal?]

theorem filterOf_eq_error_iff {kinds : Option (List String)} {e : SettingsError} :
    filterOf kinds = .error e ↔
      ∃ entries, kinds = some entries ∧ parseKinds entries = .error e := by
  cases kinds with
  | none => simp [filterOf]
  | some entries => cases h : parseKinds entries <;> simp [filterOf, h, Except.map]

theorem filterOf_ok {kinds : Option (List String)} {filter : ElementFilter}
    (h : filterOf kinds = .ok filter) : (∀ entries, kinds = some entries →
      ∀ entry ∈ entries, Readable entry) ∧ ∀ k, filter.includes k = true ↔
        ∀ entries, kinds = some entries → ∃ entry ∈ entries, k.NamedBy entry := by
  cases kinds with
  | none =>
    obtain rfl := Except.ok.inj h
    simp
  | some entries =>
    rw [filterOf] at h
    cases hparse : parseKinds entries with
    | error e => simp [hparse, Except.map] at h
    | ok ks =>
      rw [hparse] at h
      obtain rfl := Except.ok.inj h
      obtain ⟨hreadable, hmem⟩ := parseKinds_ok hparse
      simpa [hmem] using hreadable

theorem getD_pos {v : Option Nat} {n : Nat} (hv : v ≠ some 0) (hn : 0 < n) : 0 < v.getD n := by
  rcases v with _ | _ | m <;> simp_all

namespace LoadArguments

def fault? (a : LoadArguments) : LoadField → Option SettingsError
  | .extract => refusal? (given .extract "OSMLOAD_CMDS_LOAD_OSM_PBF" a.extract)
  | .database => refusal? (given .database "OSMLOAD_CMDS_LOAD_DATABASE" a.database)
  | .kinds => refusal? (filterOf a.kinds)
  | f => if a.number? f = some 0 then some (.notPositive f) else none

variable {a : LoadArguments}

theorem fault?_number {f : LoadField} (h : a.number? f = some 0) :
    a.fault? f = some (.notPositive f) := by
  cases f <;> exact if_pos h

theorem Faulty.fault?_eq {f : LoadField} {e : SettingsError} (h : Faulty a f e) :
    a.fault? f = some e := by
  cases h with
  | extract h => exact refusal?_given.2 ⟨h, rfl⟩
  | database h => exact refusal?_given.2 ⟨h, rfl⟩
  | number h => exact fault?_number h
  | @kinds _ after _ _ h hbefore hbad =>
    refine refusal?_eq_some_iff.2 (filterOf_eq_error_iff.2 ⟨_, h, ?_⟩)
    exact parseKinds_of_unreadable hbefore hbad after

theorem faulty_of_fault? {f : LoadField} {e : SettingsError} (h : a.fault? f = some e) :
    Faulty a f e := by
  cases f with
  | extract =>
    obtain ⟨hnone, rfl⟩ := refusal?_given.1 h
    exact .extract hnone
  | database =>
    obtain ⟨hnone, rfl⟩ := refusal?_given.1 h
    exact .database hnone
  | kinds =>
    obtain ⟨entries, hkinds, hparse⟩ := filterOf_eq_error_iff.1 (refusal?_eq_some_iff.1 h)
    obtain ⟨ks, hok, -⟩ | ⟨before, entry, after, t, rfl, hbefore, hbad, herror⟩ :=
      parseKinds_cases entries
    · cases hok.symm.trans hparse
    · obtain rfl := Except.error.inj (hparse.symm.trans herror)
      exact .kinds hkinds hbefore hbad
  | rowThreshold | commitThreshold | memberCommitThreshold | channelCapacity =>
    simp only [fault?] at h
    split at h
    · obtain rfl := Option.some.inj h
      exact .number ‹_›
    · cases h

theorem fault?_eq_some_iff {f : LoadField} {e : SettingsError} :
    a.fault? f = some e ↔ Faulty a f e :=
  ⟨faulty_of_fault?, Faulty.fault?_eq⟩

theorem fault?_eq_none_iff {f : LoadField} : a.fault? f = none ↔ ∀ e, ¬ Faulty a f e := by
  simp [← fault?_eq_some_iff, Option.eq_none_iff_forall_ne_some]

theorem findSome?_checks {e : SettingsError} :
    checks.findSome? a.fault? = some e ↔ a.FirstFault e := by
  simp only [List.findSome?_eq_some_iff, FirstFault, fault?_eq_some_iff, fault?_eq_none_iff]
  grind

theorem Valid.not_faulty (h : a.Valid) {f : LoadField} {e : SettingsError} : ¬ Faulty a f e := by
  intro hf
  cases hf with
  | extract hnone => exact h.extract hnone
  | database hnone => exact h.database hnone
  | number hzero => exact h.numbers _ hzero
  | kinds hkinds _ hbad => exact hbad.not_readable (h.kinds _ hkinds _ (by simp))

end LoadArguments

namespace LoadSettings

open LoadArguments

variable {a : LoadArguments}

theorem refusal?_ofArguments (a : LoadArguments) :
    refusal? (ofArguments a) = checks.findSome? a.fault? := by
  unfold ofArguments
  -- A default may depend on the numbers before it; whether a number is refused does not.
  exact refusal?_bind rfl fun _ => refusal?_bind rfl fun _ =>
    refusal?_bind refusal?_positiveOr fun _ => refusal?_bind refusal?_positiveOr fun _ =>
    refusal?_bind refusal?_positiveOr fun _ => refusal?_bind refusal?_positiveOr fun _ =>
    refusal?_bind rfl fun _ => rfl

theorem ofArguments_eq_error_iff {e : SettingsError} :
    ofArguments a = .error e ↔ a.FirstFault e := by
  rw [← refusal?_eq_some_iff, refusal?_ofArguments, findSome?_checks]

theorem memberCommit_ofRowCommit (row commit : Nat) :
    (Thresholds.ofRowCommit row commit).memberCommit = min (5 * row) maxUInt64 := by
  rw [Nat.mul_comm]
  rfl

theorem valid_of_ofArguments {s : LoadSettings} (h : ofArguments a = .ok s) :
    a.Valid ∧ a.Yields s := by
  simp only [ofArguments, bind_eq_ok_iff, given_eq_ok_iff, positiveOr_eq_ok_iff,
    memberCommit_ofRowCommit] at h
  obtain ⟨extract, hextract, database, hdatabase, row, ⟨hrow, rfl⟩, commit, ⟨hcommit, rfl⟩, member,
    ⟨hmember, hvalue⟩, capacity, ⟨hcapacity, rfl⟩, filter, hfilter, h⟩ := h
  obtain rfl := Except.ok.inj h
  obtain ⟨hreadable, hincludes⟩ := filterOf_ok hfilter
  have hnumbers : ∀ f, a.number? f ≠ some 0 := by
    intro f
    cases f <;> simp [number?, hrow, hcommit, hmember, hcapacity]
  have hrow' : 0 < a.rowThreshold.getD 10000 := getD_pos hrow (by decide)
  have hmember' : 0 < member := by
    rw [hvalue]
    exact getD_pos hmember (Nat.lt_min.2 ⟨Nat.mul_pos (by decide) hrow', by decide⟩)
  exact ⟨⟨by simp [hextract], by simp [hdatabase], hnumbers, hreadable⟩,
    hextract, hdatabase, rfl, rfl, hvalue, rfl,
    ⟨hrow', getD_pos hcommit (by decide), hmember', getD_pos hcapacity (by decide)⟩,
    hincludes, rfl, rfl⟩

/-- Arguments are accepted just if they are valid, and otherwise refused for the first field with
something wrong. What is accepted has the values given, and for the rest the defaults. -/
theorem ofArguments_checks (a : LoadArguments) :
    ((∃ s, ofArguments a = .ok s) ↔ a.Valid) ∧
    (∀ e, ofArguments a = .error e ↔ a.FirstFault e) ∧
    ∀ s, ofArguments a = .ok s → a.Yields s := by
  refine ⟨⟨?_, fun hvalid => ?_⟩, fun e => ofArguments_eq_error_iff,
    fun s hs => (valid_of_ofArguments hs).2⟩
  · rintro ⟨s, hs⟩
    exact (valid_of_ofArguments hs).1
  · cases h : ofArguments a with
    | ok s => exact ⟨s, rfl⟩
    | error e =>
      obtain ⟨_, _, _, _, _, hfaulty⟩ := ofArguments_eq_error_iff.1 h
      exact absurd hfaulty hvalid.not_faulty

/-- Capitals, blanks and a blank entry among the kinds, and one number given. -/
theorem ofArguments_checks_mixed : ∃ a s, a.kinds = some ["\tNODE ", " "] ∧
    ofArguments a = .ok s ∧ a.Yields s := by
  have htrims : Trims "\tNODE " "NODE" :=
    ⟨⟨['\t'], [' '], rfl, by simp [isBlank], by simp [isBlank]⟩, by simp [isBlank],
      by simp [isBlank]⟩
  have hnamed : ElementKind.node.NamedBy "\tNODE " :=
    ⟨"NODE", htrims, (forall₂_letters_iff (ElementKind.word_letters _)).2 (by decide)⟩
  have hnode : Readable "\tNODE " := .inr ⟨.node, hnamed⟩
  have hblank : Readable " " :=
    .inl ⟨⟨[' '], [], rfl, by simp [isBlank], by simp⟩, by simp, by simp⟩
  let a : LoadArguments :=
    { extract := some "town.osm.pbf", database := some "town.db"
      kinds := some ["\tNODE ", " "], rowThreshold := some 7 }
  have hvalid : a.Valid := by
    refine ⟨by simp [a], by simp [a], ?_, ?_⟩
    · intro f
      cases f <;> simp [a, number?]
    · rintro entries ⟨rfl⟩
      simp [hblank, hnode]
  obtain ⟨s, hs⟩ := (ofArguments_checks a).1.2 hvalid
  exact ⟨a, s, rfl, hs, (ofArguments_checks a).2.2 s hs⟩

end LoadSettings

end MapLoader

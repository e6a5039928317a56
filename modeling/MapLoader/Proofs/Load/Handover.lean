import Mathlib.Data.Nat.Find
import MapLoader.Load.Handover
import MapLoader.Proofs.Load.Moves

/-! Two parties that load together. Whatever turns they take, the writer takes every element that
could be made out once and in order, some party can move until both have left, and what they come
to is what one party alone comes to. -/

namespace MapLoader

namespace Extract.Stream

theorem entities_append (past rest : List Item) (ending : Ending) :
    (Stream.mk (past ++ rest) ending).entities =
      (Stream.mk past ending).entities ++ (Stream.mk rest ending).entities :=
  List.filterMap_append

theorem malformed_append (past rest : List Item) (ending : Ending) :
    (Stream.mk (past ++ rest) ending).malformed =
      (Stream.mk past ending).malformed ++ (Stream.mk rest ending).malformed :=
  List.filterMap_append

end Extract.Stream

namespace Handover

open Extract (Item Stream)

variable {σ κ : Type} {h h' : Handover σ κ}

def Finished (h : Handover σ κ) : Prop := h.closed = true ∧ h.outcome.isSome = true

/-- How much is left to do: an item that is not read yet has two moves before it. -/
def work (h : Handover σ κ) : Nat :=
  2 * h.unread.length + h.queue.length + (if h.closed then 0 else 1) +
    if h.outcome.isSome then 0 else 1

/-- All that the reader can do. -/
theorem readerStep?_cases {capacity : Nat} (hs : h.readerStep? capacity = some h') :
    h.closed = false ∧
      ((h.unread = [] ∧ h' = { h with closed := true }) ∨
        (∃ reason rest, h.unread = .error reason :: rest ∧
          h' = { h with unread := rest, malformed := h.malformed ++ [reason] }) ∨
        ∃ e rest, h.unread = .ok e :: rest ∧ h.queue.length < max capacity 1 ∧
          h' = { h with unread := rest, queue := h.queue ++ [e] }) := by
  unfold readerStep? at hs
  split at hs
  · cases hs
  · rename_i hc
    refine ⟨by simpa using hc, ?_⟩
    split at hs
    · rename_i hu
      exact .inl ⟨hu, (Option.some.inj hs).symm⟩
    · rename_i reason rest hu
      exact .inr (.inl ⟨reason, rest, hu, (Option.some.inj hs).symm⟩)
    · rename_i e rest hu
      split at hs
      · rename_i hroom
        exact .inr (.inr ⟨e, rest, hu, hroom, (Option.some.inj hs).symm⟩)
      · cases hs

variable [Store σ κ]

/-- All that the writer can do. -/
theorem writerStep?_cases {filter : ElementFilter} (hs : h.writerStep? filter = some h') :
    h.outcome = none ∧
      ((∃ e rest, h.queue = e :: rest ∧
          h' = { h with queue := rest, writer := h.writer.dispatch filter e }) ∨
        (h.queue = [] ∧ h.closed = true ∧ ∃ outcome writer,
          (h.writer.tell .drained).finish = (outcome, writer) ∧
            h' = { h with writer, outcome := some outcome })) := by
  unfold writerStep? at hs
  split at hs
  · cases hs
  · rename_i ho
    refine ⟨by simpa using ho, ?_⟩
    split at hs
    · rename_i e rest hq
      exact .inl ⟨e, rest, hq, (Option.some.inj hs).symm⟩
    · rename_i hq
      split at hs
      · rename_i hc
        rcases hx : (h.writer.tell .drained).finish with ⟨outcome, writer⟩
        rw [hx] at hs
        exact .inr ⟨hq, hc, outcome, writer, rfl, (Option.some.inj hs).symm⟩
      · cases hs

variable {options : LoadOptions}

theorem work_step {p : Party} (hs : h.step? options p = some h') : h'.work < h.work := by
  cases p with
  | reader =>
    obtain ⟨hc, ⟨hu, rfl⟩ | ⟨reason, rest, hu, rfl⟩ | ⟨e, rest, hu, -, rfl⟩⟩ :=
      readerStep?_cases hs
    · simp only [work, hu, hc, if_true, Bool.false_eq_true, if_false]
      omega
    · simp only [work, hu, List.length_cons]
      omega
    · simp only [work, hu, List.length_cons, List.length_append, List.length_nil]
      omega
  | writer =>
    obtain ⟨ho, ⟨e, rest, hq, rfl⟩ | ⟨hq, hc, o, writer, hx, rfl⟩⟩ := writerStep?_cases hs
    · simp only [work, hq, List.length_cons]
      omega
    · simp only [work, hq, ho, Option.isSome_some, Option.isSome_none, if_true,
        Bool.false_eq_true, if_false]
      omega

def wrote (options : LoadOptions) (store : σ) (written : List Entity) : Accumulator σ κ :=
  written.foldl (Accumulator.dispatch options.filter)
    (.new store options.thresholds options.counterReset)

/-- Where a load of these items stands: so many of them were read, and these elements were taken
by the writer. It has left only if the reader left before and nothing waits. -/
structure Stands (options : LoadOptions) (store : σ) (items past : List Item)
    (written : List Entity) (h : Handover σ κ) : Prop where
  items_eq : past ++ h.unread = items
  malformed : h.malformed = (Stream.mk past .complete).malformed
  entities : written ++ h.queue = (Stream.mk past .complete).entities
  room : h.queue.length ≤ max options.channelCapacity 1
  closed : h.closed = true → h.unread = []
  writing : h.outcome = none → h.writer = wrote options store written
  left {o : Except SessionError Report} : h.outcome = some o → h.closed = true ∧ h.queue = [] ∧
    ((wrote options store written).tell .drained).finish = (o, h.writer)

variable {store : σ} {items past : List Item} {written : List Entity}

theorem stands_start (options : LoadOptions) (store : σ) (items : List Item) :
    Stands options store items [] [] (start options store items : Handover σ κ) where
  items_eq := rfl
  malformed := rfl
  entities := rfl
  room := Nat.zero_le _
  closed := nofun
  writing _ := rfl
  left := nofun

namespace Stands

theorem readerStep (hh : Stands options store items past written h)
    (hs : h.readerStep? options.channelCapacity = some h') :
    ∃ past', Stands options store items past' written h' := by
  obtain ⟨hc, ⟨hu, rfl⟩ | ⟨reason, rest, hu, rfl⟩ | ⟨e, rest, hu, hroom, rfl⟩⟩ :=
    readerStep?_cases hs
  -- The writer is still there, because the reader is.
  · exact ⟨past, hh.items_eq, hh.malformed, hh.entities, hh.room, fun _ => hu, hh.writing,
      fun ho => absurd (hh.left ho).1 (by simp [hc])⟩
  · refine ⟨past ++ [.error reason], ?_, ?_, ?_, hh.room, ?_, hh.writing,
      fun ho => absurd (hh.left ho).1 (by simp [hc])⟩
    · simp [← hh.items_eq, hu]
    · simp [hh.malformed, Stream.malformed]
    · rw [Stream.entities_append, hh.entities]
      exact (List.append_nil _).symm
    · exact fun hc' => absurd hc' (by simp [hc])
  · refine ⟨past ++ [.ok e], ?_, ?_, ?_, ?_, ?_, hh.writing,
      fun ho => absurd (hh.left ho).1 (by simp [hc])⟩
    · simp [← hh.items_eq, hu]
    · rw [Stream.malformed_append, ← hh.malformed]
      exact (List.append_nil _).symm
    · rw [Stream.entities_append, ← hh.entities, List.append_assoc]
      rfl
    · simpa using Nat.succ_le_of_lt hroom
    · exact fun hc' => absurd hc' (by simp [hc])

theorem writerStep (hh : Stands options store items past written h)
    (hs : h.writerStep? options.filter = some h') :
    ∃ written', Stands options store items past written' h' := by
  obtain ⟨ho, ⟨e, rest, hq, rfl⟩ | ⟨hq, hc, o, writer, hx, rfl⟩⟩ := writerStep?_cases hs
  · have hroom := hh.room
    have hentities := hh.entities
    rw [hq] at hroom hentities
    refine ⟨written ++ [e], hh.items_eq, hh.malformed, ?_, Nat.le_of_succ_le hroom, hh.closed,
      fun _ => ?_, fun ho' => ?_⟩
    · simpa using hentities
    · simp [wrote, hh.writing ho]
    · cases ho.symm.trans ho'
  · refine ⟨written, hh.items_eq, hh.malformed, hh.entities, hh.room, hh.closed, nofun, ?_⟩
    intro o' ho'
    rw [← Option.some.inj ho', ← hh.writing ho]
    exact ⟨hc, hq, hx⟩

theorem step (hh : Stands options store items past written h) {p : Party}
    (hs : h.step? options p = some h') :
    ∃ past' written', Stands options store items past' written' h' := by
  cases p with
  | reader =>
    obtain ⟨past', hh'⟩ := hh.readerStep hs
    exact ⟨past', written, hh'⟩
  | writer =>
    obtain ⟨written', hh'⟩ := hh.writerStep hs
    exact ⟨past, written', hh'⟩

theorem run (hh : Stands options store items past written h) (turns : List Party) :
    ∃ past' written', Stands options store items past' written' (h.run options turns) := by
  induction turns generalizing h past written with
  | nil => exact ⟨past, written, hh⟩
  | cons p turns ih =>
    rw [Handover.run, List.foldl_cons]
    cases hs : h.step? options p with
    | none => exact ih hh
    | some h' =>
      obtain ⟨past', written', hh'⟩ := hh.step hs
      exact ih hh'

/-- Before both parties have left, one of them can move. -/
theorem exists_step (hh : Stands options store items past written h) (hf : ¬ h.Finished) :
    ∃ p, (h.step? options p).isSome = true := by
  have hleft (hc : h.closed = false) : h.outcome = none := by
    cases ho : h.outcome with
    | none => rfl
    | some o => exact absurd (hh.left ho).1 (by simp [hc])
  cases hc : h.closed with
  | true =>
    have ho : h.outcome = none := by simpa [Finished, hc] using hf
    refine ⟨.writer, ?_⟩
    cases hq : h.queue <;> simp [step?, writerStep?, ho, hq, hc]
  | false =>
    cases hu : h.unread with
    | nil => exact ⟨.reader, by simp [step?, readerStep?, hc, hu]⟩
    | cons i rest =>
      cases i with
      | error reason => exact ⟨.reader, by simp [step?, readerStep?, hc, hu]⟩
      | ok e =>
        by_cases hroom : h.queue.length < max options.channelCapacity 1
        · exact ⟨.reader, by simp [step?, readerStep?, hc, hu, hroom]⟩
        · -- The queue is full, so there is something for the writer to take.
          cases hq : h.queue with
          | nil => exact absurd (by simp only [hq, List.length_nil]; omega) hroom
          | cons x xs => exact ⟨.writer, by simp [step?, writerStep?, hleft hc, hq]⟩

theorem of_finished (hh : Stands options store items past written h) (hf : h.Finished) :
    past = items ∧ written = (Stream.mk items .complete).entities ∧
      h.outcome = some ((wrote (κ := κ) options store written).tell .drained).finish.1 ∧
      h.writer = ((wrote options store written).tell .drained).finish.2 := by
  obtain ⟨o, ho⟩ := Option.isSome_iff_exists.1 hf.2
  obtain ⟨hc, hq, hfin⟩ := hh.left ho
  have hpast : past = items := by
    have hi := hh.items_eq
    rwa [hh.closed hc, List.append_nil] at hi
  have hwritten := hh.entities
  rw [hq, List.append_nil, hpast] at hwritten
  rw [ho, hfin]
  exact ⟨hpast, hwritten, rfl, rfl⟩

theorem result?_eq {stream : Stream} (path : Path)
    (hh : Stands options store stream.items past written h) (hf : h.Finished) :
    h.result? path stream.ending = some (loadStream options store path stream) := by
  obtain ⟨hpast, hwritten, ho, hw⟩ := hh.of_finished hf
  have hm : h.malformed = stream.malformed := by
    rw [hh.malformed, hpast]
    rfl
  have hd : (wrote options store written).tell .drained =
      (Accumulator.drained options store stream.entities : Accumulator σ κ) := by
    rw [hwritten]
    rfl
  rw [hd] at ho hw
  unfold result? loadStream
  rw [ho, hw, hm, ingest_eq]
  rfl

end Stands

/-- No party is passed over for good. -/
def FairTurns (turn : Nat → Party) : Prop := ∀ p n, ∃ m, n ≤ m ∧ turn m = p

def after (options : LoadOptions) (turn : Nat → Party) (n : Nat) (h : Handover σ κ) :
    Handover σ κ := h.run options ((List.range n).map turn)

theorem after_add (turn : Nat → Party) (m n : Nat) (h : Handover σ κ) :
    h.after options turn (m + n) =
      (h.after options turn m).after options (fun i => turn (m + i)) n := by
  simp [after, run, List.range_add, Function.comp_def]

theorem after_succ (turn : Nat → Party) (n : Nat) (h : Handover σ κ) :
    h.after options turn (n + 1) =
      ((h.after options turn n).step? options (turn n)).getD (h.after options turn n) := by
  simp [after, run, List.range_succ]

theorem after_idle {turn : Nat → Party} {n : Nat}
    (hn : ∀ i < n, h.step? options (turn i) = none) : h.after options turn n = h := by
  induction n with
  | zero => rfl
  | succ n ih =>
    rw [after_succ, ih fun i hi => hn i (Nat.lt_succ_of_lt hi), hn n (Nat.lt_succ_self n)]
    rfl

/-- If no party is passed over for good, both leave in the end. -/
theorem Stands.finishes (hh : Stands options store items past written h) {turn : Nat → Party}
    (hfair : FairTurns turn) : ∃ n, (h.after options turn n).Finished := by
  generalize hw : h.work = w
  induction w using Nat.strongRecOn generalizing h past written turn with
  | _ w ih =>
    by_cases hf : h.Finished
    · exact ⟨0, hf⟩
    obtain ⟨p, hp⟩ := hh.exists_step hf
    have hmove : ∃ n, (h.step? options (turn n)).isSome = true := by
      obtain ⟨n, -, hn⟩ := hfair p 0
      exact ⟨n, hn ▸ hp⟩
    -- Until the first turn that is taken nothing changes.
    obtain ⟨h', hs⟩ := Option.isSome_iff_exists.1 (Nat.find_spec hmove)
    have hidle : h.after options turn (Nat.find hmove) = h :=
      after_idle fun i hi => by simpa using Nat.find_min hmove hi
    have hnext : h.after options turn (Nat.find hmove + 1) = h' := by
      rw [after_succ, hidle, hs]
      rfl
    obtain ⟨past', written', hh'⟩ := hh.step hs
    have hfair' : FairTurns fun i => turn (Nat.find hmove + 1 + i) := by
      intro q m
      obtain ⟨k, hk, hq⟩ := hfair q (Nat.find hmove + 1 + m)
      refine ⟨k - (Nat.find hmove + 1), by omega, ?_⟩
      rw [← hq]
      exact congrArg turn (by omega)
    obtain ⟨n, hn⟩ := ih h'.work (hw ▸ work_step hs) hh' hfair' rfl
    exact ⟨Nat.find hmove + 1 + n, by rw [after_add, hnext]; exact hn⟩

/-- However the turns fall: the writer has taken the elements that could be made out in file
order, those in the queue and those not read come next, and the queue keeps its bound. The writer
never leaves before the reader. Until both have left one of them can move, and if none is passed
over for good both leave. Then the load has come to what it comes to for one party alone: an error
of the reader first, then one of the store, and else the report with the malformed elements. -/
theorem every_schedule_loads_stream (options : LoadOptions) (store : σ) (path : Path)
    (stream : Stream) (turns : List Party) :
    let h := (start options store stream.items : Handover σ κ).run options turns
    (h.outcome.isSome = true → h.closed = true) ∧
      h.queue.length ≤ max options.channelCapacity 1 ∧
      (∃ written, written ++ h.queue ++ (Stream.mk h.unread stream.ending).entities =
          stream.entities ∧
        (h.outcome = none → h.writer = wrote options store written) ∧
        (h.Finished → written = stream.entities)) ∧
      (h.Finished ∨ ∃ p, (h.step? options p).isSome = true) ∧
      (∀ turn, FairTurns turn → ∃ n, (h.after options turn n).Finished) ∧
      (h.Finished → ∃ run, h.result? path stream.ending = some run ∧
        run = loadStream options store path stream ∧
        run.session.store = (ingest options store stream.entities).2.store ∧
        (∀ e, stream.ending = .broken e → run.outcome = .error (.decode path e)) ∧
        (stream.ending = .complete → run.outcome =
          match (ingest options store stream.entities).1 with
          | .error e => .error (.store e)
          | .ok report => .ok { report with malformed := stream.malformed.length })) := by
  obtain ⟨past, written, hh⟩ :=
    (stands_start (κ := κ) options store stream.items).run turns
  dsimp only
  generalize (start options store stream.items : Handover σ κ).run options turns = h at hh ⊢
  refine ⟨fun ho => ?_, hh.room, ⟨written, ?_, hh.writing, fun hf => (hh.of_finished hf).2.1⟩, ?_,
    fun turn hfair => hh.finishes hfair, fun hf => ⟨_, hh.result?_eq path hf, rfl, ?_⟩⟩
  · obtain ⟨o, ho⟩ := Option.isSome_iff_exists.1 ho
    exact (hh.left ho).1
  · rw [hh.entities]
    have ha := Stream.entities_append past h.unread stream.ending
    rw [hh.items_eq] at ha
    exact ha.symm
  · by_cases hf : h.Finished
    · exact .inl hf
    · exact .inr (hh.exists_step hf)
  · unfold loadStream LoadRun.conclude
    generalize ingest options store stream.entities = x
    obtain ⟨o, s⟩ := x
    cases he : stream.ending <;> cases o <;> simp
    split <;> rfl

end Handover
end MapLoader

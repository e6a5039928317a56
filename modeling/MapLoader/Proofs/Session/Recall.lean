import MapLoader.Proofs.Session.Database
import MapLoader.Proofs.Session.Fate
import MapLoader.Proofs.Session.Listing

/-! What a session was given of member lists can be read back from what it appended, over a store in
memory and over a database alike. -/

namespace MapLoader

namespace Session

/-- Whatever was called and struck before, a batch that is taken is appended as it is. -/
theorem insert_memory {faults : List Fault} (hf : Fault.Conforming faults) (calls : List Call)
    {b : Batch} {n : Nat} {u : FaultySession}
    (hb : ((fresh faults).performAll calls).openTable? = some b.table)
    (hi : ((fresh faults).performAll calls).insert b = (.ok n, u)) :
    n = b.rows.length ∧ u.ledger = ((fresh faults).performAll calls).ledger.posted b.rows := by
  have hk : CallPoint.executeKeep ∈ [CallPoint.executeKeep] := List.mem_singleton.2 rfl
  obtain ⟨a, ha, -⟩ := lasting_performAll Account.lasting_fair hk (keeps_conforming hf)
    Account.fair_empty calls
  generalize (fresh faults).performAll calls = s at hb hi ha ⊢
  obtain ⟨⟨d, hd, ht⟩, -⟩ := enters_insert ha hk (ha.openTable?_eq.symm.trans hb)
  rw [hi] at hd ht
  cases ht with
  | posted => exact ⟨rfl, hd.ledger_eq.trans (by rw [ha.ledger_eq]; rfl)⟩

variable {α : Type} {faults : List Fault}

theorem unfolds_memory (F : ListForm α) (hf : Fault.Conforming faults) (calls : List Call)
    {lists : List (Int × List α)} {n : Nat} {u : FaultySession}
    (ho : ((fresh faults).performAll calls).openTable? = some F.table)
    (hi : ((fresh faults).performAll calls).insert (F.batch lists) = (.ok n, u)) :
    ∃ rows, u.ledger = ((fresh faults).performAll calls).ledger.posted rows ∧
      F.Unfolds lists n rows := by
  rw [← F.table_batch lists] at ho
  obtain ⟨rfl, hu⟩ := insert_memory hf calls ho hi
  exact ⟨_, hu, F.unfolds_batch lists⟩

theorem unfolds_database (F : ListForm α) (hf : Fault.Conforming faults) (d : Database)
    (calls : List Call) {lists : List (Int × List α)} {n : Nat} {u : DatabaseSession}
    (ho : ((overDatabase faults d).performAll calls).openTable? = some F.table)
    (hi : ((overDatabase faults d).performAll calls).insert (F.batch lists) = (.ok n, u)) :
    ∃ rows, ((overDatabase faults d).performAll calls).view.insertRows F.table rows =
        (.ok (), u.view) ∧ F.Unfolds lists n rows := by
  rw [← F.table_batch lists] at ho ⊢
  obtain ⟨rfl, hu⟩ := insert_database hf d calls ho hi
  exact ⟨_, hu, F.unfolds_batch lists⟩

/-- Lists of members that a session takes for its open table can be told from the rows that it
appends, whatever was called and struck before. The answer is the number of members; places start
at zero in every list and rise by one; and the rows, cut before every place zero, tell the lists
that are not empty, in order, each with its parent and its members. In memory the rows are added
to the open transaction, and in a database, whatever it holds, to the table as the session sees
it. -/
theorem member_lists_read_back (faults : List Fault) (hf : Fault.Conforming faults)
    (calls : List Call) :
    (let s := (fresh faults).performAll calls
      ∀ n u,
        (∀ lists, s.openTable? = some .wayNodes → s.insert (.wayNodes lists) = (.ok n, u) →
          ∃ rows, u.ledger = s.ledger.posted rows ∧ ListForm.ways.Unfolds lists n rows) ∧
        ∀ lists, s.openTable? = some .relationMembers →
          s.insert (.relationMembers lists) = (.ok n, u) →
          ∃ rows, u.ledger = s.ledger.posted rows ∧ ListForm.relations.Unfolds lists n rows) ∧
    ∀ d : Database,
      let s := (overDatabase faults d).performAll calls
      ∀ n u,
        (∀ lists, s.openTable? = some .wayNodes → s.insert (.wayNodes lists) = (.ok n, u) →
          ∃ rows, s.view.insertRows .wayNodes rows = (.ok (), u.view) ∧
            ListForm.ways.Unfolds lists n rows) ∧
        ∀ lists, s.openTable? = some .relationMembers →
          s.insert (.relationMembers lists) = (.ok n, u) →
          ∃ rows, s.view.insertRows .relationMembers rows = (.ok (), u.view) ∧
            ListForm.relations.Unfolds lists n rows := by
  refine ⟨fun n u => ⟨fun lists ho hi => ?_, fun lists ho hi => ?_⟩,
    fun d n u => ⟨fun lists ho hi => ?_, fun lists ho hi => ?_⟩⟩
  · exact unfolds_memory .ways hf calls ho hi
  · exact unfolds_memory .relations hf calls ho hi
  · exact unfolds_database .ways hf d calls ho hi
  · exact unfolds_database .relations hf d calls ho hi

def nodeLists : List (Int × List Int) := [(5, [8, 9]), (6, []), (5, [8])]

def roleLists : List (Int × List Member) :=
  [(3, []), (3, [⟨1, .node, "stop"⟩, ⟨2, .relation, ""⟩]), (4, [⟨1, .way, "outer"⟩])]

def roleCalls : List Call := [.begin .relationMembers, .insert (.relationMembers roleLists)]

theorem conforming_roughFaults : Fault.Conforming roughFaults := by
  unfold Fault.Conforming
  decide

theorem member_lists_read_back_rough :
    Fault.Conforming roughFaults ∧
      (let s := (fresh roughFaults).performAll roleCalls
        ∃ u, s.openTable? = some .relationMembers ∧
          s.insert (.relationMembers roleLists) = (.ok 3, u) ∧
          ∃ rows, u.ledger = s.ledger.posted rows ∧
            ListForm.relations.Unfolds roleLists 3 rows) ∧
      let s := (overDatabase roughFaults .fresh).performAll memberCalls
      ∃ u, s.openTable? = some .wayNodes ∧ s.insert (.wayNodes nodeLists) = (.ok 3, u) ∧
        ∃ rows, s.view.insertRows .wayNodes rows = (.ok (), u.view) ∧
          ListForm.ways.Unfolds nodeLists 3 rows := by
  have hrelations : ((fresh roughFaults).performAll roleCalls).openTable? =
      some .relationMembers := rfl
  have hroles : (((fresh roughFaults).performAll roleCalls).insert
      (.relationMembers roleLists)).1 = .ok 3 := rfl
  have hways : ((overDatabase roughFaults .fresh).performAll memberCalls).openTable? =
      some .wayNodes := by decide +kernel
  have hnodes : (((overDatabase roughFaults .fresh).performAll memberCalls).insert
      (.wayNodes nodeLists)).1 = .ok 3 := by decide +kernel
  have hall := member_lists_read_back roughFaults conforming_roughFaults
  refine ⟨conforming_roughFaults, ?_, ?_⟩
  · have hi := (Prod.eta _).symm.trans (congrArg (·, _) hroles)
    exact ⟨_, hrelations, hi, ((hall roleCalls).1 3 _).2 roleLists hrelations hi⟩
  · have hi := (Prod.eta _).symm.trans (congrArg (·, _) hnodes)
    exact ⟨_, hways, hi, ((hall memberCalls).2 .fresh 3 _).1 nodeLists hways hi⟩

end Session
end MapLoader

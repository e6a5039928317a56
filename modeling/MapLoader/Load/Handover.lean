import MapLoader.Load.Extract

/-! Reading and writing at the same time. The reader passes elements to the writer through a
queue of bounded length; either of them takes its next step whenever it can, and waits when it
cannot. -/

namespace MapLoader

inductive Party
  | reader | writer
  deriving DecidableEq, Repr

structure Handover (σ κ : Type) where
  /-- What the reader has not taken up yet. -/
  unread : List Extract.Item
  queue : List Entity := []
  /-- Whether the reader has left. -/
  closed : Bool := false
  malformed : List Malformed := []
  writer : Accumulator σ κ
  /-- What the writer came to; it has left. -/
  outcome : Option (Except SessionError Report) := none

namespace Handover

variable {σ κ : Type}

def start (options : LoadOptions) (store : σ) (items : List Extract.Item) : Handover σ κ :=
  { unread := items, writer := .new store options.thresholds options.counterReset }

/-- The reader drops a malformed element, queues any other while there is room, and leaves in
the end. There is always room for one. -/
def readerStep? (capacity : Nat) (h : Handover σ κ) : Option (Handover σ κ) :=
  if h.closed then none
  else
    match h.unread with
    | [] => some { h with closed := true }
    | .error reason :: rest =>
      some { h with unread := rest, malformed := h.malformed ++ [reason] }
    | .ok e :: rest =>
      if h.queue.length < max capacity 1 then
        some { h with unread := rest, queue := h.queue ++ [e] }
      else none

def result? (path : Path) (ending : Extract.Ending) (h : Handover σ κ) :
    Option (LoadRun σ κ) :=
  h.outcome.map fun outcome => .conclude path ending h.malformed outcome h.writer.session

variable [Store σ κ]

/-- The writer takes elements from the queue, and finishes when the queue is empty and the reader
has left. -/
def writerStep? (filter : ElementFilter) (h : Handover σ κ) : Option (Handover σ κ) :=
  if h.outcome.isSome then none
  else
    match h.queue with
    | e :: rest => some { h with queue := rest, writer := h.writer.dispatch filter e }
    | [] =>
      if h.closed then
        let (outcome, writer) := (h.writer.tell .drained).finish
        some { h with writer, outcome := some outcome }
      else none

def step? (options : LoadOptions) (h : Handover σ κ) : Party → Option (Handover σ κ)
  | .reader => h.readerStep? options.channelCapacity
  | .writer => h.writerStep? options.filter

/-- Lets the parties take their turns; who cannot take a step lets the turn pass. -/
def run (options : LoadOptions) (turns : List Party) (h : Handover σ κ) : Handover σ κ :=
  turns.foldl (fun h party => (h.step? options party).getD h) h

end Handover

end MapLoader

import MapLoader.Table
import MapLoader.Database.Error

/-! Errors of a store: which operation failed and why. -/

namespace MapLoader

inductive Operation
  | connect | configure | prepare | bind | beginTransaction | execute | commit | rollback | close
  deriving DecidableEq, Inhabited, Repr

def Operation.text : Operation → String
  | connect => "open connection"
  | configure => "configure connection"
  | prepare => "prepare insert"
  | bind => "bind row"
  | beginTransaction => "begin transaction"
  | execute => "execute batch"
  | commit => "commit"
  | rollback => "roll back"
  | close => "close connection"

inductive StoreError.Cause
  /-- The failure was asked for. -/
  | injected
  /-- Nothing was prepared; stores differ in what they call the thing that is missing. -/
  | unprepared (noun : String)
  | arity (table : Table) (given : Nat)
  | database (error : DatabaseError)
  deriving DecidableEq, Inhabited, Repr

def StoreError.Cause.chain : StoreError.Cause → List String
  | injected => ["injected failure"]
  | unprepared noun => [s!"no {noun} prepared"]
  | arity table given => [s!"{table.name} expects {table.arity} parameters, got {given}"]
  | database error => error.chain

structure StoreError where
  operation : Operation
  cause : StoreError.Cause
  deriving DecidableEq, Inhabited, Repr

namespace StoreError

def injected (operation : Operation) : StoreError := ⟨operation, .injected⟩

def message (e : StoreError) : String := "sink failed to " ++ e.operation.text

def chain (e : StoreError) : List String := e.cause.chain

end StoreError

end MapLoader

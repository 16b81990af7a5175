/-
# BehaviorTree.Trace — events that a run leaves behind

A trace event says that something worth knowing happened in a frame, with two numbers about it. A sink
takes such events on: a log under an agent's name, or a record that a host reads later.
-/
import BehaviorTree.Text.Quoted

namespace BehaviorTree

/-- Something worth knowing that happened in a frame. -/
structure TraceEvent where
  frame : Nat
  tag : String
  a : Nat := 0
  b : Nat := 0
  deriving DecidableEq

namespace TraceEvent

/-- **`TraceEvent.text`** — an event as one line. -/
def text (e : TraceEvent) : String :=
  "[" ++ toString e.frame ++ "] " ++ e.tag ++ " a=" ++ toString e.a ++ " b=" ++ toString e.b

/-- An event as a debug line shows it. -/
def debug (e : TraceEvent) : String :=
  Text.fields "TraceEvent"
    [("frame", toString e.frame), ("tag", Text.quoted e.tag), ("a", toString e.a),
      ("b", toString e.b)]

end TraceEvent

/-- What takes trace events on. -/
inductive Sink where
  /-- The log, under the name of an agent. -/
  | log (agent : String)
  /-- A record, one of several. -/
  | record (id : Nat)
  deriving DecidableEq

end BehaviorTree

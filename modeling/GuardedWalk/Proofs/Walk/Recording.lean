import GuardedWalk.Proofs.Walk.Setting
import GuardedWalk.Recording

/-!
# What a recorder notes

A recorder is told when an event ends, but not which one, and takes it to be the one that has begun
last and is still open. Since a walk says everything about a node between the beginning and the end
of the node, this is always the right one.

## Main definitions

* `GuardedWalk.Note`, `GuardedWalk.Notice.note` — what a note says.
* `GuardedWalk.Record` — the notes of a recorder and the events that it holds to be open.
* `GuardedWalk.Record.hear` — what a recorder does about what it is told.
* `GuardedWalk.Balanced` — everything that begins ends, the last first.

## Main results

* `GuardedWalk.Agenda.notices_balanced` — what an agenda says is balanced.
* `GuardedWalk.Balanced.record` — what is balanced is noted as it is.
-/

set_option autoImplicit false

namespace GuardedWalk

/-- What a note says: a word, an event, and the arguments of the event if it begins. -/
structure Note where
  word : Value
  event : Value
  args : Option (List Value)
deriving DecidableEq, Repr

/-- The note about the beginning or the end of what is announced. -/
def Notice.note : Notice → Note
  | .before e args => ⟨Recording.beforeWord, .event e, some args⟩
  | .after e => ⟨Recording.afterWord, .event e, none⟩

/-- The notes of a recorder and the events that it holds to be open. -/
structure Record where
  notes : List Note
  opened : List Value
deriving DecidableEq, Repr

namespace Record

/-- A recorder that has been told nothing. -/
def blank : Record := ⟨[], []⟩

/-- What a recorder does about what it is told. -/
def hear (k : Record) : Told → Record
  | .before e args =>
    ⟨k.notes ++ [⟨Recording.beforeWord, .event e, some args⟩], k.opened ++ [.event e]⟩
  | .after =>
    ⟨k.notes ++ [⟨Recording.afterWord, k.opened.getLast?.getD .none, none⟩], k.opened.dropLast⟩

/-- What a recorder has noted after some callbacks. -/
def after (L : List Callback) : Record := L.foldl (fun k c => k.hear c.2) blank

theorem after_append (L : List Callback) (c : Callback) :
    after (L ++ [c]) = (after L).hear c.2 := by
  simp [after]

/-- The note that a recorder makes of what it is told. -/
def noteOf (k : Record) : Told → Note
  | .before e args => ⟨Recording.beforeWord, .event e, some args⟩
  | .after => ⟨Recording.afterWord, k.opened.getLast?.getD .none, none⟩

theorem hear_notes (k : Record) (n : Told) : (k.hear n).notes = k.notes ++ [k.noteOf n] := by
  cases n <;> rfl

end Record

/-! ## Balance -/

/-- Everything that begins ends, and what begins last ends first. -/
inductive Balanced : List Notice → Prop where
  | nil : Balanced []
  | around (e : Event) (args : List Value) {inner rest : List Notice} (h : Balanced inner)
    (h' : Balanced rest) : Balanced (around e args inner ++ rest)

namespace Balanced

variable {ns ns' : List Notice}

theorem append (h : Balanced ns) (h' : Balanced ns') : Balanced (ns ++ ns') := by
  induction h with
  | nil => exact h'
  | around e args h _ _ ih =>
    rw [List.append_assoc]
    exact .around e args h ih

/-- **What is balanced is noted as it is**, and no event is held to be open that was not before. -/
theorem record (h : Balanced ns) (k : Record) :
    (ns.map Notice.told).foldl Record.hear k = ⟨k.notes ++ ns.map Notice.note, k.opened⟩ := by
  induction h generalizing k with
  | nil => simp
  | @around e args inner rest _ _ ih ih' =>
    have hinner := ih (k.hear (.before e args))
    simp only [GuardedWalk.around, List.cons_append, List.map_cons, List.map_append,
      List.foldl_cons, List.foldl_append, Notice.told, List.map_nil, List.foldl_nil]
    rw [hinner, ih']
    simp [Record.hear, Notice.note]

end Balanced

/-- **What an agenda says is balanced.** -/
theorem Agenda.notices_balanced {κ : Type} (A : Agenda κ) : Balanced A.notices := by
  induction A with
  | done => exact .nil
  | ask c rest ih => exact ih
  | entry e args source inner rest ihInner ih => exact .around e args ihInner ih

end GuardedWalk

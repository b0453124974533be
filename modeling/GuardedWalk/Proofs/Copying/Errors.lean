import GuardedWalk.Proofs.Copying.Adding
import GuardedWalk.Proofs.Copying.Written
import GuardedWalk.Proofs.Copying.Deep

/-!
# Copies of errors

A copy of an exception is made by its class from the arguments of its text. Two classes of errors
are made from something else than what their text is made of. One about foreign traversal is made
from a node, a visitor and the name of a thread, but its text is one message; so its class cannot
make it again. One about a configuration is made from a list of problems, but its text is one
message as well; so it is made again from the characters of that message, one problem each, before
its attributes are set.

## Main definitions

* `GuardedWalk.World.Refuses`, `Blames` — errors about foreign traversal and configurations.
* `GuardedWalk.Copying.lacking` — what comes of making an error about foreign traversal again.
* `GuardedWalk.Failure.characters` — what an error about a configuration names when it is made
  again.

## Main results

* `GuardedWalk.Act.makeException_refuses`, `makeException_blames` — the errors as they are made.
* `GuardedWalk.Copying.deep_refuses`, `written_refuses` — no copy of an error about foreign
  traversal is made.
* `GuardedWalk.Copying.deep_blames`, `written_blames` — a copy of an error about a configuration has
  another text.
-/

set_option autoImplicit false

namespace GuardedWalk

/-! ## Texts -/

namespace Failure

/-- The characters of a text, each of them as a text. -/
def characters (s : String) : List String := s.toList.map String.singleton

/-- Texts that are joined are no shorter together than there are texts, if none of them is empty. -/
theorem length_le_joined (texts : List String) (h : ∀ t ∈ texts, t.length = 1) :
    texts.length ≤ (joined texts).length := by
  unfold joined
  induction texts with
  | nil => exact Nat.zero_le _
  | cons t rest ih =>
    have ht := h t List.mem_cons_self
    have hrest := ih fun u hu => h u (List.mem_cons_of_mem t hu)
    cases rest with
    | nil => simp [ht]
    | cons u rest =>
      rw [String.intercalate_cons_cons, String.length_append, String.length_append, ht,
        List.length_cons]
      omega

/-- No text of an error about a configuration is the text of an error about its own characters: that
one is longer. -/
theorem configurationText_characters_ne (s : String) : configurationText (characters s) ≠ s := by
  intro h
  have hle := length_le_joined (characters s) (by simp [characters])
  have hlen : ("Invalid walker configuration: " ++ joined (characters s)).length = s.length :=
    congrArg String.length h
  have hprefix : "Invalid walker configuration: ".length = 30 := by decide
  have hcount : (characters s).length = s.length := by
    rw [characters, List.length_map, String.length_toList]
  rw [String.length_append, hprefix] at hlen
  omega

end Failure

namespace World

variable {ε : Type} {w : World ε} {r : Ref .exception}

/-- An error about foreign traversal, with what its text is made of. -/
structure Refuses (w : World ε) (r : Ref .exception) (message : String) : Prop where
  cls : (w.exceptions.get r).cls = .foreignTraversalError
  args : w.argsOf r = [.text message]

/-- An error about a configuration, with what its text is made of and the list of the problems that
it names. -/
structure Blames (w : World ε) (r : Ref .exception) (message : String) (l : Ref .list)
    (problems : List String) : Prop where
  cls : (w.exceptions.get r).cls = .configurationError
  args : w.argsOf r = [.text message]
  attributes : (w.exceptions.get r).attributes = [("problems", .list l)]
  stored : l.index < w.lists.cells.size
  items : w.items l = problems.map .text

/-- The plain text of an exception that is made of one text is that text. -/
theorem plain_exception {message : String} (hcls : (w.exceptions.get r).cls ≠ .keyError)
    (h : w.argsOf r = [.text message]) : w.plain (.exception r) = .ok message := by
  have hrow : w.row (w.exceptions.get r).args = [.text message] := h
  unfold plain extent
  simp [plainWithin, hrow, hcls]

theorem elementsOf_tuple (w : World ε) (t : Ref .tuple) :
    w.elementsOf (.tuple t) = .ok (w.row t) := by
  unfold elementsOf iterable
  cases w.extent <;> rfl

theorem elementsOf_text (w : World ε) (s : String) :
    w.elementsOf (.text s) = .ok ((Failure.characters s).map .text) := by
  unfold elementsOf iterable Failure.characters
  rw [List.map_map]
  cases w.extent <;> rfl

end World

/-! ## Errors that are made -/

namespace Act

variable {ε : Type} {w : World ε}

theorem textsFrom_texts (w : World ε) (texts : List String) (place : Nat) :
    textsFrom w place (texts.map .text) = .ok texts := by
  induction texts generalizing place with
  | nil => rfl
  | cons t rest ih =>
    simp only [List.map_cons, textsFrom, ih]
    rfl

/-- The world after an exception has been made of one text. -/
theorem run_newException (w : World ε) (cls : ExceptionClass) (message : String) (a : Attributes) :
    let made := w.newException cls [.text message] a
    (made.2.exceptions.get made.1).cls = cls ∧ made.2.argsOf made.1 = [.text message] ∧
      (made.2.exceptions.get made.1).attributes = a ∧ made.2.lists = w.lists := by
  have hget : (w.newException cls [.text message] a).2.exceptions.get w.exceptions.next =
      ⟨cls, w.tuples.next, cls.slots [.text message] (.tuple w.tuples.next), a⟩ :=
    (Store.get_add ..).trans (if_pos rfl)
  refine ⟨congrArg _ hget, ?_, congrArg _ hget, rfl⟩
  have hrow : (w.newException cls [.text message] a).2.row w.tuples.next = [.text message] :=
    congrArg Array.toList ((Store.get_add ..).trans (if_pos rfl))
  exact (congrArg (fun x => World.row _ (ExceptionObject.args x)) hget).trans hrow

/-- **An error about foreign traversal that is made** of a node, a visitor, the name of a thread, a
reason and perhaps a message keeps them, and its text is made of one message. -/
theorem makeException_refuses (w : World ε) (node visitor : Value) (thread reason : String)
    (message : Option String) :
    ∃ r w' text, (makeException .foreignTraversalError [node, visitor, .text thread, .text reason,
        (message.map .text).getD .none]).run w = (.ok r, w') ∧ w'.Refuses r text ∧
      (∀ s, message = some s → text = s) ∧
      (w'.exceptions.get r).attributes = [("node", node), ("visitor", visitor),
        ("thread_name", .text thread), ("reason", .text reason)] := by
  obtain ⟨text, hparts, htext⟩ : ∃ text, (exceptionParts .foreignTraversalError [node, visitor,
      .text thread, .text reason, (message.map .text).getD .none]).run w =
      (.ok ([.text text], [("node", node), ("visitor", visitor), ("thread_name", .text thread),
        ("reason", .text reason)]), w) ∧ ∀ s, message = some s → text = s := by
    cases message with
    | none =>
      refine ⟨Failure.foreignText (w.className node) (w.className visitor) (Text.quoted thread)
        reason, ?_, by simp⟩
      simp [exceptionParts, foreignMessage, World.literal, World.literalWithin]
      rfl
    | some s =>
      refine ⟨s, ?_, fun s' h => Option.some.inj h⟩
      simp [exceptionParts]
  obtain ⟨hcls, hargs, hattributes, -⟩ := run_newException w .foreignTraversalError text
    [("node", node), ("visitor", visitor), ("thread_name", .text thread),
      ("reason", .text reason)]
  refine ⟨_, _, text, ?_, ⟨hcls, hargs⟩, htext, hattributes⟩
  simp only [makeException, run_bind, hparts, run_make]

/-- **An error about a configuration that is made** of some problems names them. -/
theorem makeException_blames {v : Value} {problems : List String}
    (h : w.elementsOf v = .ok (problems.map .text)) :
    ∃ r l w', (makeException .configurationError [v]).run w = (.ok r, w') ∧
      w'.Blames r (Failure.configurationText problems) l problems := by
  let w₁ := (w.newList (problems.map .text)).2
  have hparts : (exceptionParts .configurationError [v]).run w =
      (.ok ([.text (Failure.configurationText problems)], [("problems", .list w.lists.next)]),
        w₁) := by
    simp only [exceptionParts, gather, addList, run_bind, run_look, h, run_make, textsFrom_texts,
      run_pure]
    rfl
  obtain ⟨hcls, hargs, hattributes, hlists⟩ := run_newException w₁ .configurationError
    (Failure.configurationText problems) [("problems", .list w.lists.next)]
  refine ⟨_, w.lists.next, _, ?_, hcls, hargs, hattributes, ?_, ?_⟩
  · simp only [makeException, run_bind, hparts, run_make]
  · rw [hlists]
    simp [w₁, World.newList, World.storeList, Store.add, Store.next]
  · have hget : w₁.lists.get w.lists.next = (problems.map Value.text).toArray :=
      (Store.get_add ..).trans (if_pos rfl)
    rw [World.items, hlists, hget]

end Act

namespace Copying

open Act

variable {ε : Type} {w w' : World ε} {r : Ref .exception} {l : Ref .list} {message : String}
  {problems : List String}

/-- There is always room for an exception and for what it holds. -/
theorem extent_depth (w : World ε) : ∃ n, w.extent * w.extent = n + 1 + 1 := by
  have h : 2 ≤ w.extent := by unfold World.extent; omega
  exact ⟨w.extent * w.extent - 2, by have := Nat.mul_le_mul h h; omega⟩

/-- An object is not found among others. -/
theorem lookup_other {u v : Value} (h : u ≠ v) (n k : Nat) : [(v, n)].lookup u ≠ some k := by
  simp [List.lookup_cons, beq_false_of_ne h]

/-! ## Deep copies -/

/-- A text is copied in no step. -/
theorem deepWithin_text (fuel : Nat) (begun : List (Value × Nat)) (s : String) (m : Memo Value)
    (w : World ε) : ((deepWithin fuel begun (.text s)).run m).run w = (.ok (.text s, m), w) := by
  rw [deepWithin_shared rfl]
  rfl

/-- What comes of making an error about foreign traversal from one argument. -/
def lacking : Failure :=
  .missingArguments (Failure.maker ExceptionClass.foreignTraversalError.name)
    ["visitor", "thread_name"]

/-- An error about foreign traversal is not made from one argument. -/
theorem makeException_lacking (w : World ε) (v : Value) :
    (makeException .foreignTraversalError [v]).run w = (.error lacking, w) := rfl

/-- **An error about foreign traversal is not copied**: its class is asked for an error of one
message. -/
theorem deep_refuses (h : w.Refuses r message) :
    (deep (.exception r)).run w = (.error lacking, w) := by
  obtain ⟨n, hn⟩ := extent_depth w
  simp only [deep, run_bind, run_see, hn]
  rw [deepWithin_new rfl (Memo.find?_empty _) (by simp)]
  simp only [copyObject, StateT.run_bind, run_bind, StateT.run_monadLift, monadLift_self, run_see,
    run_pure, h.args, copyAll, deepWithin_text, StateT.run_pure, h.cls, makeException_lacking]

/-- An error about a configuration that is made of its own text names the characters of it. -/
theorem remake_blames (w : World ε) (message : String) :
    ∃ r l w', (makeException .configurationError [.text message]).run w = (.ok r, w') ∧ Adds w w' ∧
      w.exceptions.cells.size ≤ r.index ∧
      w'.Blames r (Failure.configurationText (Failure.characters message)) l
        (Failure.characters message) := by
  obtain ⟨r, l, w', hmake, hblames⟩ := makeException_blames (w.elementsOf_text message)
  obtain ⟨hadds, hr⟩ := makeException_adds hmake
  exact ⟨r, l, w', hmake, hadds, hr, hblames⟩

/-- Texts are copied to the end of a list. -/
theorem copyItems_texts (fuel : Nat) (begun : List (Value × Nat)) (l : Ref .list) (m : Memo Value) :
    ∀ (texts : List String) (w : World ε), ∃ w',
      ((copyItems (deepWithin fuel begun) l (texts.map .text)).run m).run w = (.ok ((), m), w') ∧
        w'.items l = w.items l ++ texts.map .text ∧ w'.exceptions = w.exceptions ∧
        w'.tuples = w.tuples ∧ w.lists.cells.size ≤ w'.lists.cells.size
  | [], w => ⟨w, rfl, by simp, rfl, rfl, Nat.le_refl _⟩
  | t :: rest, w => by
    obtain ⟨w', hrun, hitems, hexceptions, htuples, hsize⟩ :=
      copyItems_texts fuel begun l m rest (w.push l (.text t))
    refine ⟨w', ?_, ?_, hexceptions, htuples, Nat.le_trans (Store.size_modify _ _ _) hsize⟩
    · simp only [List.map_cons, copyItems, StateT.run_bind, run_bind]
      rw [deepWithin_shared rfl]
      exact hrun
    · have hget : (w.push l (.text t)).items l = w.items l ++ [.text t] := by
        simp [World.items, World.push, Store.get_modify]
      rw [hitems, hget]
      simp

/-- An error that is given another list of problems names these. -/
theorem blames_restored {v : Value} {l' : Ref .list}
    (hcls : (w.exceptions.get r).cls = .configurationError)
    (hargs : w.argsOf r = [.text message])
    (hattributes : (w.exceptions.get r).attributes = [("problems", v)])
    (hl : l'.index < w.lists.cells.size) (hitems : w.items l' = problems.map .text) :
    (w.modifyOwn (.exception r) fun a =>
      [("problems", Value.list l')].foldl (fun a p => a.set p.1 p.2) a).Blames r message l'
        problems := by
  let restored (x : ExceptionObject) : ExceptionObject :=
    { x with
      attributes := [("problems", Value.list l')].foldl (fun a p => a.set p.1 p.2) x.attributes }
  have hget : (w.exceptions.modify r restored).get r = restored (w.exceptions.get r) :=
    (Store.get_modify ..).trans (if_pos rfl)
  refine ⟨(congrArg _ hget).trans hcls, ?_, (congrArg _ hget).trans ?_, hl, hitems⟩
  · exact (congrArg (fun x => World.row w (ExceptionObject.args x)) hget).trans hargs
  · simp only [restored, hattributes]
    rfl

/-- A list of texts is copied. -/
theorem deepWithin_texts (fuel : Nat) (begun : List (Value × Nat)) (m : Memo Value)
    (hl : w.items l = problems.map .text) (hm : m.find? (.list l) = none)
    (hbegun : begun.lookup (.list l) ≠ some m.size) : ∃ w',
      ((deepWithin (fuel + 1) begun (.list l)).run m).run w =
        (.ok (.list w.lists.next, m.insert (.list l) (.list w.lists.next)), w') ∧
      w'.items w.lists.next = problems.map .text ∧ w'.exceptions = w.exceptions ∧
      w'.tuples = w.tuples ∧ w.lists.next.index < w'.lists.cells.size := by
  obtain ⟨w', hcopy, hitems, hexceptions, htuples, hsize⟩ := copyItems_texts fuel
    ((.list l, m.size) :: begun) w.lists.next (m.insert (.list l) (.list w.lists.next)) problems
    (w.storeList []).2
  refine ⟨w', ?_, ?_, hexceptions, htuples, Nat.lt_of_lt_of_le ?_ hsize⟩
  · rw [deepWithin_new rfl hm hbegun]
    simp only [copyObject, remember, StateT.run_bind, run_bind, StateT.run_monadLift,
      monadLift_self, run_see, run_pure, StateT.run_modify, run_make, StateT.run_pure, hl,
      show (w.storeList []).1 = w.lists.next from rfl, hcopy]
  · rw [hitems, items_storeList, List.nil_append]
  · simp [World.storeList, Store.add, Store.next]

/-- **A deep copy of an error about a configuration** names the same problems, but its text is about
the characters of the old text. -/
theorem deep_blames (h : w.Blames r message l problems) : ∃ r' l' w',
    (deep (.exception r)).run w = (.ok (.exception r'), w') ∧
      w'.Blames r' (Failure.configurationText (Failure.characters message)) l' problems ∧
      w.lists.cells.size ≤ l'.index := by
  obtain ⟨n, hn⟩ := extent_depth w
  obtain ⟨r', l₁, w₁, hmake, hadds, hr', hblames⟩ := remake_blames w message
  have hsame : w₁.items l = problems.map .text := by
    rw [World.items, show w₁.lists.get l = w.lists.get l from hadds.lists.2 l h.stored]
    exact h.items
  obtain ⟨w₂, hcopy, hitems, hexceptions, htuples, hsize⟩ :=
    deepWithin_texts n [(.exception r, Memo.empty.size)]
      (Memo.empty.insert (.exception r) (.exception r')) hsame (by simp [Memo.find?_insert])
      (lookup_other (by simp) _ _)
  have hargs : w₂.argsOf r' = w₁.argsOf r' := by
    rw [World.argsOf, World.argsOf, World.row, World.row, hexceptions, htuples]
  refine ⟨r', w₁.lists.next, _, ?_, blames_restored (hexceptions ▸ hblames.cls)
    (hargs.trans hblames.args) (hexceptions ▸ hblames.attributes) hsize hitems, hadds.lists.1⟩
  simp only [deep, run_bind, run_see, hn]
  rw [deepWithin_new rfl (Memo.find?_empty _) (by simp)]
  simp only [copyObject, remember, StateT.run_bind, run_bind, StateT.run_monadLift, monadLift_self,
    run_see, run_pure, h.args, deepWithin_text, h.cls, hmake, StateT.run_modify, copyAttributes,
    h.attributes, copyAll, List.map_cons, List.map_nil, StateT.run_pure, restore, run_change]
  rw [hcopy]
  rfl

/-! ## What is written out and read back -/

/-- What is written of a value before anything is read back. -/
def spelled (w : World ε) (v : Value) : Except Failure (List Instruction × Memo Nat) × World ε :=
  ((writeWithin (w.extent * w.extent) [] v).run .empty).run w

/-- A text is written as it is. -/
theorem writeWithin_text (fuel : Nat) (begun : List (Value × Nat)) (s : String) (μ : Memo Nat)
    (w : World ε) :
    ((writeWithin fuel begun (.text s)).run μ).run w = (.ok ([.keep (.text s)], μ), w) :=
  writeWithin_shared rfl rfl fuel begun μ

/-- What is written of the arguments of an exception with one text: they have not been written
before. -/
theorem writeWithin_row {a : Ref .tuple} (h : w.row a = [.text message]) {μ : Memo Nat}
    (hμ : μ.find? (.tuple a) = none) {begun : List (Value × Nat)}
    (hbegun : begun.lookup (.tuple a) ≠ some μ.size) (fuel : Nat) :
    ((writeWithin (fuel + 1) begun (.tuple a)).run μ).run w =
      (.ok ([.keep (.text message), .tuple 1, .number], μ.insert (.tuple a) μ.size), w) := by
  rw [writeWithin_new rfl rfl hμ hbegun]
  simp only [writeObject, StateT.run_bind, run_bind, StateT.run_monadLift, monadLift_self, run_see,
    run_pure, h, List.isEmpty_cons, Bool.false_eq_true, if_false, writeAll, writeWithin_text,
    StateT.run_pure, numberOr, StateT.run_get, hμ, numberNext, StateT.run_modify]
  rfl

/-- What is built first of an exception with one text. -/
def madeOf (cls : ExceptionClass) (message : String) : List Instruction :=
  [.keep (.text message), .tuple 1, .number, .exception cls, .number]

/-- What is numbered when an exception has been written but for its attributes. -/
def numberedOf (w : World ε) (r : Ref .exception) : Memo Nat :=
  (Memo.empty.insert (.tuple (w.exceptions.get r).args) 0).insert (.exception r) 1

/-- What is written of an exception with one text: its attributes come last. -/
theorem writeWithin_exception (h : w.argsOf r = [.text message]) (fuel : Nat) :
    ((writeWithin (fuel + 2) [] (.exception r)).run .empty).run w =
      match ((writeAttributes (writeWithin (fuel + 1) [(.exception r, 0)])
        (w.exceptions.get r).attributes).run (numberedOf w r)).run w with
      | (.ok (J, μ), w') => (.ok (madeOf (w.exceptions.get r).cls message ++ J, μ), w')
      | (.error f, w') => (.error f, w') := by
  have hrow : w.row (w.exceptions.get r).args = [.text message] := h
  have hempty : (Memo.empty : Memo Nat).size = 0 := rfl
  have hnew : ((Memo.empty : Memo Nat).insert (.tuple (w.exceptions.get r).args) 0).find?
      (.exception r) = none := by simp [Memo.find?_insert]
  have hargs : ((writeWithin (fuel + 1) [(.exception r, 0)]
      (.tuple (w.exceptions.get r).args)).run .empty).run w = _ :=
    writeWithin_row hrow (Memo.find?_empty _) (lookup_other (by simp) _ _) fuel
  rw [writeWithin_new rfl rfl (Memo.find?_empty _) (by simp)]
  simp only [writeObject, StateT.run_bind, run_bind, StateT.run_monadLift, monadLift_self, run_see,
    run_pure, hempty, hargs, StateT.run_get, numberOr, hnew, numberNext, StateT.run_modify,
    StateT.run_pure, Option.isNone_none, if_true, Memo.size_insert, madeOf, numberedOf]
  generalize ExceptT.run (StateT.run (writeAttributes _ _) _) w = x
  rcases x with ⟨⟨J, μ⟩ | f, w'⟩ <;> rfl

/-- The arguments of an exception are built first. -/
theorem row_built (message : String) (I : List Instruction) (stack : List Value)
    (numbered : Array Value) (w : World ε) :
    ((.keep (.text message) :: .tuple 1 :: .number :: I).foldlM carryOut ⟨stack, numbered⟩).run w =
      (I.foldlM carryOut ⟨.tuple w.tuples.next :: stack, numbered.push (.tuple w.tuples.next)⟩).run
        (w.newTuple [.text message]).2 := rfl

/-- Then the exception is made of them. -/
theorem exception_built (cls : ExceptionClass) (message : String) (I : List Instruction)
    (stack : List Value) (numbered : Array Value) (w : World ε) :
    ((madeOf cls message ++ I).foldlM carryOut ⟨stack, numbered⟩).run w =
      match (makeException cls [.text message]).run (w.newTuple [.text message]).2 with
      | (.ok r, w') => (I.foldlM carryOut ⟨.exception r :: stack,
          (numbered.push (.tuple w.tuples.next)).push (.exception r)⟩).run w'
      | (.error f, w') => (.error f, w') := by
  have hget : (w.newTuple [.text message]).2.row w.tuples.next = [.text message] :=
    congrArg Array.toList ((Store.get_add ..).trans (if_pos rfl))
  rw [madeOf, List.cons_append, List.cons_append, List.cons_append, row_built]
  simp only [List.cons_append, List.nil_append, List.foldlM_cons, carryOut, gather, Bench.head,
    List.headD_cons, run_bind, run_look, World.elementsOf_tuple, hget, Bench.pop, Bench.push,
    List.drop_one, List.tail_cons, run_pure]
  generalize ExceptT.run (makeException cls _) _ = x
  rcases x with ⟨_ | _, _⟩ <;> rfl

/-- **An error about foreign traversal cannot be read back** after it has been written out: its
class is asked for an error of one message. -/
theorem written_refuses (h : w.Refuses r message) :
    ∃ f w', (written (.exception r)).run w = (.error f, w') ∧
      (f = lacking ∨ spelled w (.exception r) = (.error f, w')) := by
  obtain ⟨n, hn⟩ := extent_depth w
  have hspelled := writeWithin_exception h.args n
  simp only [written, run_bind, run_see, spelled, hn]
  generalize ExceptT.run (StateT.run (writeAttributes _ _) _) w = x at hspelled
  rw [hspelled]
  rcases x with ⟨f | ⟨J, μ⟩, w'⟩
  · exact ⟨f, w', rfl, .inr rfl⟩
  · refine ⟨lacking, (w'.newTuple [.text message]).2, ?_, .inl rfl⟩
    simp only [build, run_bind, exception_built, h.cls, makeException_lacking]

/-- What keeps texts is written of texts. -/
def keeping (texts : List String) : List Instruction := texts.map fun t => .keep (.text t)

theorem writeAll_texts (fuel : Nat) (begun : List (Value × Nat)) (w : World ε) (μ : Memo Nat) :
    ∀ texts : List String, ((writeAll (writeWithin fuel begun) (texts.map .text)).run μ).run w =
      (.ok (keeping texts, μ), w)
  | [] => rfl
  | t :: rest => by
    simp only [List.map_cons, writeAll, StateT.run_bind, run_bind, writeWithin_text,
      writeAll_texts fuel begun w μ rest, StateT.run_pure, run_pure]
    rfl

/-- What builds a list of texts. -/
def listing (texts : List String) : List Instruction :=
  .list :: .number :: keeping texts ++ putting texts.length (.append texts.length)

/-- What is written of a list of texts. -/
theorem writeWithin_texts (fuel : Nat) (begun : List (Value × Nat)) (μ : Memo Nat)
    (hl : w.items l = problems.map .text) (hμ : μ.find? (.list l) = none)
    (hbegun : begun.lookup (.list l) ≠ some μ.size) :
    ((writeWithin (fuel + 1) begun (.list l)).run μ).run w =
      (.ok (listing problems, μ.insert (.list l) μ.size), w) := by
  rw [writeWithin_new rfl rfl hμ hbegun]
  simp only [writeObject, numberNext, StateT.run_bind, run_bind, StateT.run_monadLift,
    monadLift_self, run_see, run_pure, StateT.run_modify, StateT.run_pure, hl, writeAll_texts,
    List.length_map]
  rfl

theorem keeping_built (numbered : Array Value) (w : World ε) (I : List Instruction) :
    ∀ (texts : List String) (stack : List Value),
      ((keeping texts ++ I).foldlM carryOut ⟨stack, numbered⟩).run w =
        (I.foldlM carryOut ⟨(texts.map .text).reverse ++ stack, numbered⟩).run w
  | [], stack => rfl
  | t :: rest, stack => by
    rw [List.map_cons, List.reverse_cons, List.append_assoc, List.singleton_append]
    exact keeping_built numbered w I rest (.text t :: stack)

/-- A list of texts is built, and it becomes the only attribute of an object. -/
theorem texts_built (x : Value) (numbered : Array Value) (name : String) (texts : List String)
    (w : World ε) : ∃ (w' : World ε) (numbered' : Array Value),
      ((listing texts ++ [Instruction.restore [name]]).foldlM carryOut ⟨[x], numbered⟩).run w =
        (.ok ⟨[x], numbered'⟩, w'.modifyOwn x fun a =>
          [(name, Value.list w.lists.next)].foldl (fun a p => a.set p.1 p.2) a) ∧
      w'.items w.lists.next = texts.map .text ∧ w'.exceptions = w.exceptions ∧
      w'.tuples = w.tuples ∧ w.lists.next.index < w'.lists.cells.size := by
  obtain ⟨w', hrun, hleaves, ⟨N, L, hw'⟩, hitems⟩ := putting_append_run (w := (w.storeList []).2)
    (fun _ => none) (texts.map .text) [x] (numbered.push (.list w.lists.next)) (items_storeList w)
  rw [show (stand fun _ => none) = id from rfl, List.map_id] at hrun hitems
  rw [List.length_map] at hrun
  refine ⟨w', numbered.push (.list w.lists.next), ?_, hitems, ?_, ?_, ?_⟩
  · rw [listing, List.cons_append, List.cons_append, List.cons_append, List.cons_append,
      list_number_run, List.append_assoc, keeping_built, run_foldlM_append hrun]
    rfl
  · rw [hw']
    rfl
  · rw [hw']
    rfl
  · exact Nat.lt_of_lt_of_le (by simp [World.storeList, Store.add, Store.next]) hleaves.listsSize

/-- **An error about a configuration that is written out and read back** names the same problems,
but its text is about the characters of the old text. -/
theorem written_blames (h : w.Blames r message l problems) : ∃ r' l' w',
    (written (.exception r)).run w = (.ok (.exception r'), w') ∧
      w'.Blames r' (Failure.configurationText (Failure.characters message)) l' problems ∧
      w.lists.cells.size ≤ l'.index := by
  obtain ⟨n, hn⟩ := extent_depth w
  let w₁ := (w.newTuple [.text message]).2
  obtain ⟨r', l₁, w₂, hmake, hadds, hr', hblames⟩ := remake_blames w₁ message
  obtain ⟨w₃, numbered', hbuilt, hitems, hexceptions, htuples, hsize⟩ := texts_built
    (.exception r') (#[].push (.tuple w.tuples.next) |>.push (.exception r')) "problems" problems w₂
  have hargs : w₃.argsOf r' = w₂.argsOf r' := by
    rw [World.argsOf, World.argsOf, World.row, World.row, hexceptions, htuples]
  refine ⟨r', w₂.lists.next, _, ?_, blames_restored (hexceptions ▸ hblames.cls)
    (hargs.trans hblames.args) (hexceptions ▸ hblames.attributes) hsize hitems, hadds.lists.1⟩
  have hlist := writeWithin_texts n [(.exception r, 0)] (numberedOf w r) h.items
    (by simp [numberedOf, Memo.find?_insert]) (lookup_other (by simp) _ _)
  have hspelled := writeWithin_exception h.args n
  simp only [h.cls, h.attributes, writeAttributes, StateT.run_bind, run_bind, writeAll,
    List.map_cons, List.map_nil, hlist, StateT.run_pure, run_pure] at hspelled
  have hlast : listing problems ++ [] ++ putting [("problems", Value.list l)].length
      (.restore ["problems"]) = listing problems ++ [.restore ["problems"]] := by
    rw [List.append_nil]
    rfl
  simp only [written, run_bind, run_see, hn, hspelled, build, hlast, exception_built]
  rw [hmake]
  simp only [hbuilt, run_pure]
  rfl

end Copying

end GuardedWalk

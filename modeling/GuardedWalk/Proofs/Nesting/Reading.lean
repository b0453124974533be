import GuardedWalk.Proofs.Nesting.Brackets
import GuardedWalk.Proofs.Run.Filling
import GuardedWalk.Proofs.Walk.Asking
import GuardedWalk.Proofs.Walk.Recorder

/-!
# What a recorder answers

A recorder can be asked for its notes in words, for the events that have begun, and for the
arguments with which an event has begun. It goes through its notes and makes a new list. Notes of
what a recorder has been told can always be read: each starts with one of two words, and an event is
missing only where an end belongs to no beginning.

## Main definitions

* `GuardedWalk.Note.Regular` — a note of something that a recorder has been told.
* `GuardedWalk.Note.name`, `Notice.name` — a note and a notice in words.
* `GuardedWalk.Recorder.Returns` — what a recorder answers.

## Main results

* `GuardedWalk.Told.regular` — the notes of what a recorder has been told are regular.
* `GuardedWalk.Recorder.Keeps.names`, `beforeEvents`, `argsFor` — what a recorder answers.
-/

set_option autoImplicit false

namespace GuardedWalk

/-! ## Notes of what has been told -/

namespace Note

/-- A note of something that a recorder has been told: an end is that of an event or of nothing. -/
inductive Regular : Note → Prop where
  | begins (e : Event) (args : List Value) : Regular ⟨Recording.beforeWord, .event e, some args⟩
  | ends (e : Event) : Regular ⟨Recording.afterWord, .event e, none⟩
  | stray : Regular ⟨Recording.afterWord, .none, none⟩

/-- A note in words. -/
def name (n : Note) : String :=
  let phase := match n.word with
    | .text s => s
    | _ => ""
  match n.event with
  | .event e => phase ++ ":" ++ e.methodName
  | _ => phase ++ ":None"

/-- The event that a note says to begin, with its arguments. -/
def opening? (n : Note) : Option (Value × List Value) :=
  if n.word = Recording.beforeWord then n.args.map fun args => (n.event, args) else none

end Note

/-- What is announced, in words. -/
def Notice.name : Notice → String
  | .before e _ => Message.before.name ++ ":" ++ e.methodName
  | .after e => Message.after.name ++ ":" ++ e.methodName

theorem Notice.name_note (n : Notice) : n.note.name = n.name := by
  cases n <;> rfl

namespace Told

variable {ts : List Told} {n : Note}

theorem regular_noteOf (ts : List Told) (t : Told) : ((record ts).noteOf t).Regular := by
  cases t with
  | before e args => exact .begins e args
  | after =>
    rcases List.eq_nil_or_concat (record ts).opened with hnil | ⟨vs, v, hlast⟩
    · rw [Record.noteOf, hnil]
      exact .stray
    · rw [List.concat_eq_append] at hlast
      obtain ⟨-, e, -, -, -, -, rfl, -⟩ := exists_innermost hlast
      rw [Record.noteOf, hlast, List.getLast?_concat]
      exact .ends e

/-- **The notes of what a recorder has been told are regular.** -/
theorem regular (h : n ∈ (record ts).notes) : n.Regular := by
  obtain ⟨j, t, -, rfl⟩ := exists_told_of_mem_notes h
  exact regular_noteOf _ t

/-- The notes of beginnings are those of what has been told to begin. -/
theorem filterMap_opening (ts : List Told) :
    (record ts).notes.filterMap Note.opening? =
      (ts.filterMap opening?).map fun b => (.event b.1, b.2) := by
  induction ts using List.reverseRecOn with
  | nil => rfl
  | append_singleton ts t ih =>
    rw [record_concat, Record.hear_notes, List.filterMap_append, ih, List.filterMap_append,
      List.map_append]
    cases t <;> rfl

end Told

/-! ## Notes in the world -/

namespace World

variable {ε : Type} {w : World ε} {v x : Value} {e : Event} {args : List Value} {n : Note}

/-- An element of a tuple. -/
theorem item_tuple {r : Ref .tuple} {i : Nat} (hi : isSmall i = true) (h : (w.row r)[i]? = some x) :
    w.item (.tuple r) (.int i) = .ok x := by
  rw [row, Array.getElem?_toList] at h
  obtain ⟨hlt, hget⟩ := Array.getElem?_eq_some_iff.1 h
  have hplace : placeOf (i : Int) (w.tuples.get r).size = some i := by
    have hnat : ¬ (i : Int) < 0 := by omega
    simp only [placeOf, if_neg hnat]
    rw [if_pos ⟨by omega, by omega⟩, Int.toNat_natCast]
  simp only [item, placeIn, indexOf?, hi, hplace, Bool.not_true, Bool.false_eq_true, if_false]
  simp [Array.getD, hlt, hget, bind, Except.bind, pure, Except.pure]

/-- What can be read of a note. -/
theorem Says.read (h : w.Says v n) :
    w.item v (.int 0) = .ok n.word ∧ w.item v (.int 1) = .ok n.event ∧
      ∀ args, n.args = some args → ∃ a : Ref .tuple, w.item v (.int 2) = .ok (.tuple a) ∧
        w.row a = args := by
  obtain ⟨r, rfl, -, hrow⟩ := h
  have hitem : ∀ {i : Nat} {x : Value}, isSmall i = true → (w.row r)[i]? = some x →
      w.item (.tuple r) (.int i) = .ok x := item_tuple
  cases hargs : n.args with
  | none =>
    rw [hargs] at hrow
    exact ⟨hitem (i := 0) (by decide) (by rw [hrow]; rfl),
      hitem (i := 1) (by decide) (by rw [hrow]; rfl), nofun⟩
  | some given =>
    rw [hargs] at hrow
    obtain ⟨a, -, hrow, hgiven⟩ := hrow
    refine ⟨hitem (i := 0) (by decide) (by rw [hrow]; rfl),
      hitem (i := 1) (by decide) (by rw [hrow]; rfl), fun args h => ⟨a, ?_, ?_⟩⟩
    · exact hitem (i := 2) (by decide) (by rw [hrow]; rfl)
    · rw [hgiven, Option.some.inj h]

theorem Says.isBeginning (h : w.Says v n) :
    Recording.isBeginning w v = .ok (decide (n.word = Recording.beforeWord)) := by
  simp [Recording.isBeginning, h.read.1, bind, Except.bind, pure, Except.pure]

/-- A note in words. -/
theorem Says.noteName (h : w.Says v n) (hn : n.Regular)
    (hevents : ∀ e : Event,
      (w.carried (.event e)).get? "_value_" = some (.text e.methodName)) :
    Recording.noteName w v = .ok n.name := by
  have hname : ∀ e : Event, Recording.nameOfEvent w (.event e) = .ok e.methodName := by
    intro e
    simp [Recording.nameOfEvent, attrValue, member_event (hevents e), Member.plain, bind,
      Except.bind, pure, Except.pure]
  obtain ⟨hword, hevent, -⟩ := h.read
  cases hn <;>
    simp [Recording.noteName, hword, hevent, Recording.beforeWord, Recording.afterWord, isTrue,
      hname, Note.name, bind, Except.bind, pure, Except.pure]

end World

namespace Recorder

variable {ε κ : Type} {R : Recorder} {D : Ref .list → Prop} {k : Record} {w : World ε}
  {F : Foreign ε κ}

/-! ## Going through the notes -/

theorem Keeps.notesOf (hk : R.Keeps D k w) :
    Recording.notesOf w R.observer = .ok (w.items R.notes) := by
  rw [Recording.notesOf, hk.ownValue.1]
  rfl

/-- The notes in words. -/
theorem Keeps.names_eq (hk : R.Keeps D k w) (hregular : ∀ n ∈ k.notes, n.Regular)
    (hevents : ∀ e : Event,
      (w.carried (.event e)).get? "_value_" = some (.text e.methodName)) :
    Recording.names w R.observer = .ok (k.notes.map Note.name) := by
  obtain ⟨ps, hps, hnotes, hentries⟩ := hk.notes
  rw [hnotes] at hregular ⊢
  simp only [Recording.names, hk.notesOf, hps, bind, Except.bind]
  rw [List.mapM_map, List.map_map]
  exact mapM_of_forall fun p hp =>
    (hentries p hp).noteName (hregular _ (List.mem_map_of_mem hp)) hevents

/-- The events that have begun. -/
theorem Keeps.begunEvents_eq (hk : R.Keeps D k w) (hregular : ∀ n ∈ k.notes, n.Regular) :
    Recording.begunEvents w R.observer =
      .ok ((k.notes.filterMap Note.opening?).map Prod.fst) := by
  obtain ⟨ps, hps, hnotes, hentries⟩ := hk.notes
  rw [hnotes] at hregular ⊢
  rw [List.filterMap_map, List.map_filterMap]
  simp only [Recording.begunEvents, hk.notesOf, hps, bind, Except.bind]
  refine filterMapM_of_forall fun p hp => ?_
  have hp' := hentries p hp
  have hn := hregular _ (List.mem_map_of_mem hp)
  generalize p.1 = v, hm : p.2 = n at hp' hn
  simp only [Function.comp_apply, hm, hp'.isBeginning, hp'.read.2.1]
  cases hn <;> rfl

/-- The arguments with which an event has begun. -/
theorem Keeps.argsOf_eq (hk : R.Keeps D k w) (hregular : ∀ n ∈ k.notes, n.Regular) (e : Event) :
    ∃ rows : List (Ref .tuple),
      Recording.argsOf w R.observer (.event e) = .ok (rows.map .tuple) ∧
      rows.map w.row =
        ((k.notes.filterMap Note.opening?).filter (·.1 = .event e)).map Prod.snd := by
  obtain ⟨ps, hps, hnotes, hentries⟩ := hk.notes
  rw [hnotes] at hregular ⊢
  have hrow : ∀ p ∈ ps, ∃ o : Option (Ref .tuple),
      (do if ← Recording.isBeginning w p.1 then
            if (← w.item p.1 (.int 1)) = .event e then return some (← w.item p.1 (.int 2))
            else return none
          else return none : Except Failure (Option Value)) = .ok (o.map .tuple) ∧
        o.map w.row = (p.2.opening?.filter (·.1 = .event e)).map Prod.snd := by
    intro p hp
    have hp' := hentries p hp
    have hn := hregular _ (List.mem_map_of_mem hp)
    generalize p.1 = v, p.2 = n at hp' hn
    simp only [hp'.isBeginning, hp'.read.2.1]
    cases hn with
    | begins e' args =>
      obtain ⟨a, ha, hargs⟩ := hp'.read.2.2 args rfl
      by_cases he : e' = e
      · exact ⟨some a, by simp [he, ha, bind, Except.bind, pure, Except.pure],
          by simp [he, hargs, Note.opening?]⟩
      · exact ⟨none, by simp [he, bind, Except.bind, pure, Except.pure],
          by simp [he, Note.opening?]⟩
    | ends | stray => exact ⟨none, rfl, rfl⟩
  choose! row hrow hargs using hrow
  refine ⟨ps.filterMap row, ?_, ?_⟩
  · simp only [Recording.argsOf, hk.notesOf, hps, bind, Except.bind]
    rw [List.map_filterMap]
    exact filterMapM_of_forall hrow
  · rw [List.map_filterMap, List.filterMap_map, List.filter_filterMap, List.map_filterMap]
    exact List.filterMap_congr fun p hp => hargs p hp

/-! ## Answers -/

/-- A recorder answers a message with a new list, on whatever thread it is asked, and then something
holds of the world and the elements of the list. -/
def Returns (R : Recorder) (F : Foreign ε κ) (w : World ε) (m : Message) (args : List Value)
    (Q : World ε → List Value → Prop) : Prop :=
  ∀ t, ∃ l w' calls, Surroundings.Answers (Walk.body F t) w (.send (.observer R.observer) m args)
    (.ok (.list l)) w' calls ∧ Q w' (w'.items l)

/-- A recorder that makes a list of what it finds in its notes answers with it. -/
theorem Keeps.returns (hk : R.Keeps D k w) {m : Message} {args xs : List Value}
    {Q : World ε → List Value → Prop} (hu : w.understands (.observer R.observer) m = true)
    (hm : m ≠ .accept) (hneeds : m.needsNoObject = false)
    (hp : w.argumentProblem? (.observer R.observer) m args.length = none)
    (hanswer : ∀ t, (Walk.answer F t (.observer R.observer) m args : Walk.Steps ε κ Value) =
      Routine.act (Reply.reply F.obstruct (.observer R.observer) m args))
    (hrun : (Reply.reply F.obstruct (.observer R.observer) m args).run w =
      (.ok (w.newList xs).1, (w.newList xs).2))
    (hQ : ∀ w', w'.tuples = w.tuples → Q w' xs) : R.Returns F w m args Q := by
  intro t
  let c : Call κ := .send (.observer R.observer) m args
  have h₀ : ((Moment.start w).calling c).Asked w ((Moment.start w).calling c) := ⟨rfl, [], by simp⟩
  have hS := Surroundings.calm_alone F t
  have hyields : (Surroundings.alone (Walk.body F t)).Yields (.free ε κ)
      ((Moment.start w).calling c) (Walk.body F t c) fun o σ' =>
        o = .ok (w.newList xs).1 ∧ σ'.world = (w.newList xs).2 := by
    refine hS.delivered h₀ hu (hk.unhidden m hm) (by rwa [hneeds]) fun σ₁ h₁ => ?_
    rw [hneeds, if_neg (by simp), hanswer]
    exact hS.step h₁ hrun fun σ₂ h₂ => ⟨rfl, h₂.world⟩
  obtain ⟨o, σ', l, hanswers, -, rfl, hw⟩ := Surroundings.Answers.of_yields hyields
  refine ⟨w.lists.next, σ'.world, l, hanswers, ?_⟩
  have hitems : σ'.world.items w.lists.next = xs := by
    rw [hw]
    simp [World.newList, World.storeList, World.items, Store.get_add]
  rw [hitems]
  exact hQ _ (by rw [hw]; rfl)

theorem Keeps.understands (hk : R.Keeps D k w) {m : Message}
    (hm : m = .names ∨ m = .beforeEvents ∨ m = .argsFor ∨ m = .clear) :
    w.understands (.observer R.observer) m = true := by
  rcases hm with rfl | rfl | rfl | rfl <;>
    simp [World.understands, hk.cls, ObserverClass.hasLog]

/-- **What a recorder answers that is asked for its notes in words.** -/
theorem Keeps.names (hk : R.Keeps D k w) (hregular : ∀ n ∈ k.notes, n.Regular)
    (hevents : ∀ e : Event,
      (w.carried (.event e)).get? "_value_" = some (.text e.methodName)) :
    R.Returns F w .names [] fun _ vs => vs = k.notes.map fun n => .text n.name := by
  refine hk.returns (hk.understands (.inl rfl)) (by simp) rfl rfl (fun _ => rfl) ?_ fun _ _ => rfl
  simp only [Reply.reply, Act.run_bind, Act.run_look, hk.names_eq hregular hevents, Reply.addTexts,
    List.map_map]
  rfl

/-- **What a recorder answers that is asked which events have begun.** -/
theorem Keeps.beforeEvents (hk : R.Keeps D k w) (hregular : ∀ n ∈ k.notes, n.Regular) :
    R.Returns F w .beforeEvents [] fun _ vs =>
      vs = (k.notes.filterMap Note.opening?).map Prod.fst := by
  refine hk.returns (hk.understands (.inr (.inl rfl))) (by simp) rfl rfl (fun _ => rfl) ?_
    fun _ _ => rfl
  simp only [Reply.reply, Act.run_bind, Act.run_look, hk.begunEvents_eq hregular]
  rfl

/-- **What a recorder answers that is asked with which arguments an event has begun.** -/
theorem Keeps.argsFor (hk : R.Keeps D k w) (hregular : ∀ n ∈ k.notes, n.Regular) (e : Event) :
    R.Returns F w .argsFor [.event e] fun w' vs => ∃ rows : List (Ref .tuple),
      vs = rows.map .tuple ∧ rows.map w'.row =
        ((k.notes.filterMap Note.opening?).filter (·.1 = .event e)).map Prod.snd := by
  obtain ⟨rows, hrun, hrows⟩ := hk.argsOf_eq hregular e
  have hreply : (Reply.reply F.obstruct (.observer R.observer) .argsFor [.event e]).run w =
      (.ok (w.newList (rows.map .tuple)).1, (w.newList (rows.map .tuple)).2) := by
    simp only [Reply.reply, Act.run_bind, Act.run_look, List.headD_cons, hrun]
    rfl
  refine hk.returns (hk.understands (.inr (.inr (.inl rfl)))) (by simp) rfl rfl (fun _ => rfl)
    hreply fun w' hw' => ⟨rows, rfl, ?_⟩
  refine (List.map_congr_left fun a _ => ?_).trans hrows
  rw [World.row, World.row, hw']

end Recorder

end GuardedWalk

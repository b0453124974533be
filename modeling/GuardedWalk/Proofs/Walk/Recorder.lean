import GuardedWalk.Proofs.Walk.Recital
import GuardedWalk.Proofs.Walk.Recording

/-!
# Recorders

A recorder keeps its notes in a list and the open events in another one. What it does when it is
told something changes these two lists and adds tuples, so a walk with a recorder goes on in the
same scene.

## Main definitions

* `GuardedWalk.World.Says` — a value is a note.
* `GuardedWalk.Recorder` — a recorder with its lists.
* `GuardedWalk.Recorder.Keeps` — what a recorder has noted.
* `GuardedWalk.Recorder.Rests` — nothing happens to a recorder.

## Main results

* `GuardedWalk.Scene.jot` — notes leave the scene as it is.
* `GuardedWalk.Recorder.hearBefore_yields`, `hearAfter_yields` — what a recorder does when it is
  told something.
-/

set_option autoImplicit false

namespace GuardedWalk

variable {ε : Type}

namespace World

/-- A value is a note: a tuple of a word, an event and, if there are any, a tuple of arguments. -/
def Says (w : World ε) (v : Value) (n : Note) : Prop :=
  ∃ r : Ref .tuple, v = .tuple r ∧ r.index < w.tuples.cells.size ∧
    match n.args with
    | none => w.row r = [n.word, n.event]
    | some args => ∃ a : Ref .tuple, a.index < w.tuples.cells.size ∧
      w.row r = [n.word, n.event, .tuple a] ∧ w.row a = args

/-- What a note says, read back from the world. -/
def note? (w : World ε) : Value → Option Note
  | .tuple r =>
    match w.row r with
    | [word, event] => some ⟨word, event, none⟩
    | [word, event, .tuple args] => some ⟨word, event, some (w.row args)⟩
    | _ => none
  | _ => none

variable {w w' : World ε}

theorem Says.note? {v : Value} {n : Note} (h : w.Says v n) : w.note? v = some n := by
  obtain ⟨word, event, args⟩ := n
  obtain ⟨r, rfl, -, hr⟩ := h
  cases args with
  | none => simp only [World.note?, show w.row r = _ from hr]
  | some args =>
    obtain ⟨a, -, hrow, hargs⟩ := hr
    simp only [World.note?, show w.row r = _ from hrow, hargs]

theorem row_of_grows (h : w.tuples.Grows id w'.tuples) {r : Ref .tuple}
    (hr : r.index < w.tuples.cells.size) : w'.row r = w.row r := by
  have hsame := h.2 r hr
  simp only [id] at hsame
  simp [row, hsame]

/-- A note stays as it is. -/
theorem Says.grows {v : Value} {n : Note} (h : w.Says v n)
    (ht : w.tuples.Grows id w'.tuples) : w'.Says v n := by
  obtain ⟨r, hv, hr, hrow⟩ := h
  refine ⟨r, hv, Nat.lt_of_lt_of_le hr ht.1, ?_⟩
  cases hn : n.args with
  | none =>
    rw [hn] at hrow
    exact (row_of_grows ht hr).trans hrow
  | some args =>
    rw [hn] at hrow
    obtain ⟨a, ha, hra, hargs⟩ := hrow
    exact ⟨a, Nat.lt_of_lt_of_le ha ht.1, (row_of_grows ht hr).trans hra,
      (row_of_grows ht ha).trans hargs⟩

end World

/-- A recorder with the lists that it keeps its notes and the open events in. -/
structure Recorder where
  observer : Ref .observer
  notes : Ref .list
  opened : Ref .list
  lock : Ref .lock

/-- What a recorder has noted. Its lists are none of those in which documents keep their parts. -/
structure Recorder.Keeps (R : Recorder) (D : Ref .list → Prop) (k : Record) (w : World ε) : Prop where
  cls : (w.observers.get R.observer).cls = .recording
  unhidden : w.Unhidden (.observer R.observer)
  notesField :
    (w.carried (.observer R.observer)).get? Observer.notesField = some (.list R.notes)
  openField :
    (w.carried (.observer R.observer)).get? Observer.openField = some (.list R.opened)
  lockField : (w.carried (.observer R.observer)).get? Observer.lockField = some (.lock R.lock)
  apart : R.notes ≠ R.opened
  notesApart : ¬ D R.notes
  openApart : ¬ D R.opened
  opened : w.items R.opened = k.opened
  notes : ∃ ps : List (Value × Note), w.items R.notes = ps.map Prod.fst ∧
    k.notes = ps.map Prod.snd ∧ ∀ p ∈ ps, w.Says p.1 p.2

/-! ## Notes leave the scene as it is -/

section Jot

variable {w w' : World ε} {ls : Store .list (Array Value)} {ts : Store .tuple (Array Value)}

theorem carried_jot (w : World ε) (ls : Store .list (Array Value))
    (ts : Store .tuple (Array Value)) (v : Value) :
    World.carried { w with lists := ls, tuples := ts } v = w.carried v := by
  cases v <;> rfl

/-- Notes leave the scene of a walk as it is. -/
theorem Scene.jot {κ : Type} {X : Cast} {strict : Bool} {D : Ref .list → Prop} {root : Agenda κ}
    {pins : List Pin} {h : Hold} (hs : Scene X strict D root pins h w)
    (hls : ∀ l : Ref .list, D l → ls.get l = w.lists.get l)
    (hts : w.tuples.Grows id ts) :
    Scene X strict D root pins h { w with lists := ls, tuples := ts } := by
  have hf : World.Frame (fun _ => True) w { w with lists := ls, tuples := ts } :=
    World.frame_contents _ hts
  exact {
    assembled := hs.assembled.frame hf fun _ _ => trivial
    held := hs.held.frame hf fun name _ => by rw [carried_jot]
    pinned := fun p hp => (hs.pinned p hp).frame hf
    fits := hs.fits.frame hf (fun r name _ => by rw [carried_jot])
      (fun l hl => by simp [World.items, hls l hl]) fun r own hm => hm.frame hf (carried_jot ..) }

end Jot

/-! ## Notes of a recorder -/

namespace Recorder

variable {R : Recorder} {D : Ref .list → Prop} {k : Record} {w w' : World ε}

/-- From one world to another nothing has happened to what a recorder reads and writes. -/
structure Rests (R : Recorder) (w w' : World ε) : Prop where
  cls : (w'.observers.get R.observer).cls = (w.observers.get R.observer).cls
  carried : ∀ name ∉ Node.marks, (w'.carried (.observer R.observer)).get? name =
    (w.carried (.observer R.observer)).get? name
  notes : w'.items R.notes = w.items R.notes
  opened : w'.items R.opened = w.items R.opened
  tuples : w.tuples.Grows id w'.tuples

/-- A recorder to which nothing happens has noted what it had noted. -/
theorem Keeps.rests (hk : R.Keeps D k w) (h : R.Rests w w') : R.Keeps D k w' := by
  obtain ⟨ps, hps, hnotes, hnoted⟩ := hk.notes
  exact {
    cls := h.cls.trans hk.cls
    unhidden := World.unhidden_of_carried h.carried hk.unhidden
    notesField := (h.carried _ (by decide)).trans hk.notesField
    openField := (h.carried _ (by decide)).trans hk.openField
    lockField := (h.carried _ (by decide)).trans hk.lockField
    apart := hk.apart
    notesApart := hk.notesApart
    openApart := hk.openApart
    opened := h.opened.trans hk.opened
    notes := ⟨ps, h.notes.trans hps, hnotes, fun p hp => (hnoted p hp).grows h.tuples⟩ }

/-- Nothing happens to a recorder in a step of a walk. -/
theorem Rests.of_mild (hw : w.Mild w') : R.Rests w w' where
  cls := hw.observers _
  carried := hw.carried _ rfl
  notes := by rw [World.items, World.items, hw.lists]
  opened := by rw [World.items, World.items, hw.lists]
  tuples := hw.tuples

/-- A step of a walk does not change what a recorder has noted. -/
theorem Keeps.mild (hk : R.Keeps D k w) (hw : w.Mild w') : R.Keeps D k w' := hk.rests (.of_mild hw)

/-- A note is added, and the open events change. -/
theorem Keeps.jot (hk : R.Keeps D k w) {ls : Store .list (Array Value)}
    {ts : Store .tuple (Array Value)} {opened : List Value} {v : Value} {n : Note}
    (hopened : (ls.get R.opened).toList = opened)
    (hnotes : ls.get R.notes = (w.lists.get R.notes).push v) (hts : w.tuples.Grows id ts)
    (hnoted : World.Says { w with lists := ls, tuples := ts } v n) :
    R.Keeps D ⟨k.notes ++ [n], opened⟩ { w with lists := ls, tuples := ts } := by
  obtain ⟨ps, hps, hk', hall⟩ := hk.notes
  refine {
    cls := hk.cls, apart := hk.apart, notesApart := hk.notesApart, openApart := hk.openApart
    unhidden := hk.unhidden, notesField := hk.notesField, openField := hk.openField
    lockField := hk.lockField, opened := hopened
    notes := ⟨ps ++ [(v, n)], ?_, by simp [hk'], fun p hp => ?_⟩ }
  · have hitems : (w.lists.get R.notes).toList = ps.map Prod.fst := hps
    simp [World.items, hnotes, hitems]
  · rcases List.mem_append.1 hp with hp | hp
    · exact (hall p hp).grows hts
    · rw [List.mem_singleton.1 hp]
      exact hnoted

/-- What a recorder reads from its attributes. -/
theorem Keeps.ownValue (hk : R.Keeps D k w) :
    w.ownValue (.observer R.observer) Observer.notesField = .list R.notes ∧
      w.ownValue (.observer R.observer) Observer.openField = .list R.opened ∧
      w.ownValue (.observer R.observer) Observer.lockField = .lock R.lock :=
  ⟨World.ownValue_of_carried hk.notesField, World.ownValue_of_carried hk.openField,
    World.ownValue_of_carried hk.lockField⟩

/-- What a recorder has noted can be read. -/
theorem Keeps.read (hk : R.Keeps D k w) :
    w.elementsOf (.list R.notes) = .ok (w.items R.notes) ∧
      (w.items R.notes).map w.note? = k.notes.map some := by
  obtain ⟨ps, hps, hnotes, hnoted⟩ := hk.notes
  refine ⟨rfl, ?_⟩
  rw [hps, hnotes, List.map_map, List.map_map]
  exact List.map_congr_left fun p hp => (hnoted p hp).note?

/-- A recorder shows how many events it holds to be open. -/
theorem Keeps.depth (hk : R.Keeps D k w) :
    w.member (.observer R.observer) "depth" = .ok (.value (.int k.opened.length)) := by
  have hget : w.getter? (.observer R.observer) "depth" = some (.count Observer.openField) := by
    simp [World.getter?, hk.cls, ObserverClass.hasLog]
  have hsize : (w.lists.get R.opened).size = k.opened.length := by
    have := congrArg List.length hk.opened
    simpa [World.items] using this
  simp [World.member, World.extent, World.memberWithin, hget, World.workOut, hk.ownValue.2.1,
    World.length, World.lengthWithin, hsize, bind, Except.bind, pure, Except.pure]

/-! ## Lists -/

open Surroundings

variable {κ : Type} {F : Foreign ε κ} {t : Thread} {σ : Moment ε κ} {ρ : Rule ε κ}

/-- A rule that asks nothing of what is done with lists, as long as they are not taken for
visitors. -/
def SparesLists (ρ : Rule ε κ) : Prop :=
  ∀ (l : Ref .list) m args σ, (∀ e, m ≠ .entry e) → ρ (.send (.list l) m args) σ

/-- A method of a list is a step. -/
theorem list_yields (hρ : SparesLists ρ) {l : Ref .list} {m : Message} {args : List Value}
    (hentry : ∀ e, m ≠ .entry e)
    (hm : World.understands σ.world (.list l) m = true)
    (hneeds : m.needsNoObject = false)
    (hp : σ.world.argumentProblem? (.list l) m args.length = none)
    {r : Outcome} {w : World ε}
    (hrun : (Walk.answer F t (.list l) m args : Walk.Steps ε κ Value) =
      Routine.act (Reply.reply F.obstruct (.list l) m args))
    (hw : (Reply.reply F.obstruct (.list l) m args).run σ.world = (r, w))
    {Q : Outcome → Moment ε κ → Prop}
    (hQ : ∀ σ' : Moment ε κ, σ'.world = w → σ'.window = .open →
      σ'.calls = σ.calls ++ [.send (.list l) m args] → Q r σ') :
    (alone (Walk.body F t)).Yields ρ σ (Walk.send (.list l) m args) Q := by
  have hmem : σ.world.member (.list l) m.name = .ok (.bound m) := by
    rw [World.member_of_understands hm rfl, hneeds]
    rfl
  refine .invoke rfl (hρ l m args σ hentry) ?_
  refine .bind (alone_look hmem ?_)
  refine .bind (alone_look (r := .ok none) (congrArg Except.ok hp) ?_)
  show (alone (Walk.body F t)).Yields ρ _ (Walk.answer F t (.list l) m args) _
  rw [hrun]
  exact alone_step hw (hQ _ rfl rfl rfl)

/-- Something is added to a list in an attribute. -/
theorem appendTo_yields (hρ : SparesLists ρ) {v x : Value} {field : String} {l : Ref .list}
    (hl : σ.world.ownValue v field = .list l) {Q : Except Failure Unit → Moment ε κ → Prop}
    (hQ : ∀ σ' : Moment ε κ, σ'.world = σ.world.push l x → σ'.window = .open →
      σ'.calls = σ.calls ++ [.send (.list l) .append [x]] → Q (.ok ()) σ') :
    (alone (Walk.body F t)).Yields ρ σ (Walk.appendTo v field x) Q := by
  refine .bind (alone_look (r := .ok (.list l)) (congrArg Except.ok hl) ?_)
  refine .bind (list_yields hρ (r := .ok .none) (w := σ.world.push l x) (by simp) rfl rfl rfl rfl rfl
    fun σ' hw hσ hcalls => ?_)
  exact .pure (hQ σ' hw hσ hcalls)

theorem placeToPop_last {l : Ref .list} {xs : List Value} {x : Value}
    (hl : w.items l = xs ++ [x]) : w.placeToPop l (.int (-1)) = .ok xs.length := by
  have hsize : (w.lists.get l).size = xs.length + 1 := by
    have hlen := congrArg List.length hl
    simpa [World.items] using hlen
  have hsmall : World.isSmall (-1) = true := by decide
  have hplace : World.placeOf (-1) (xs.length + 1) = some xs.length := by
    have h : (-1 : Int) + ((xs.length + 1 : Nat) : Int) = xs.length := by omega
    simp only [World.placeOf, h, show (-1 : Int) < 0 by decide, if_true]
    rw [if_pos ⟨by omega, by omega⟩, Int.toNat_natCast]
  unfold World.placeToPop World.asPlace
  simp only [World.indexOf?, hsmall, if_true, hsize, bind, Except.bind, hplace]
  rfl

/-- The last element is taken out of a list. -/
theorem popAt_run {l : Ref .list} {xs : List Value} {x : Value} (hl : w.items l = xs ++ [x]) :
    (Act.popAt l (.int (-1)) : Act ε Value).run w = (.ok x, w.without l xs.length) := by
  have hx : w.elementAt l xs.length = x := by
    have hget : (w.lists.get l)[xs.length]? = some x := by
      rw [← Array.getElem?_toList, show (w.lists.get l).toList = _ from hl]
      simp
    simp [World.elementAt, Array.getD_eq_getD_getElem?, hget]
  simp only [Act.popAt, Act.run_bind, Act.run_look, placeToPop_last hl, Act.run_see, hx,
    Act.run_change, Act.run_pure]

theorem ofList_pop_run {l : Ref .list} {xs : List Value} {x : Value}
    (hl : w.items l = xs ++ [x]) :
    (Reply.ofList l .pop [] : Act ε Value).run w = (.ok x, w.without l xs.length) := by
  unfold Reply.ofList
  simp only [List.headD_nil, popAt_run hl]

/-! ## What a recorder does when it is told something -/

/-- A recorder has noted something: from one moment to another its lists have changed and tuples
have been added. -/
structure Jots (R : Recorder) (D : Ref .list → Prop) (k : Record) (σ σ' : Moment ε κ) : Prop where
  world : ∃ ls ts, σ'.world = { σ.world with lists := ls, tuples := ts } ∧
    (∀ l, l ≠ R.notes → l ≠ R.opened → ls.get l = σ.world.lists.get l) ∧
    σ.world.tuples.Grows id ts
  keeps : R.Keeps D k σ'.world
  window : σ'.window = .open
  calls : ∃ cs, σ'.calls = σ.calls ++ cs ∧
    ∀ c ∈ cs, ∃ (l : Ref .list) (m : Message) (args : List Value),
      c = .send (.list l) m args ∧ m ≠ .handle

/-- A recorder finds that it is one, and takes its lock. -/
theorem begin_yields {α : Type} (hk : R.Keeps D k σ.world) (hσ : σ.window = .open)
    {rest : Walk.Steps ε κ α} {Q : Except Failure α → Moment ε κ → Prop}
    (hrest : ∀ σ' : Moment ε κ, σ'.world = σ.world → σ'.window = .open → σ'.calls = σ.calls →
      (alone (Walk.body F t)).Yields ρ σ' rest Q) :
    (alone (Walk.body F t)).Yields ρ σ (Walk.lockRecorder R.observer >>= fun _ => rest) Q := by
  refine .bind (.bind (alone_look (r := .ok (.lock R.lock))
    (congrArg Except.ok hk.ownValue.2.2) (alone_step (r := .ok ()) (w := σ.world) rfl ?_)))
  exact hrest _ rfl (by simp [Moment.stepped, hσ, Window.next]) rfl

theorem classOf_yields (hk : R.Keeps D k σ.world) (hσ : σ.window = .open)
    {Q : Except Failure ObserverClass → Moment ε κ → Prop}
    (hQ : ∀ σ' : Moment ε κ, σ'.world = σ.world → σ'.window = .open → σ'.calls = σ.calls →
      Q (.ok .recording) σ') :
    (alone (Walk.body F t)).Yields ρ σ (Walk.classOf R.observer) Q := by
  refine .bind (alone_look (r := .ok (σ.world.observers.get R.observer)) rfl (.pure ?_))
  rw [hk.cls]
  exact hQ _ rfl (by simp [Moment.stepped, hσ, Window.next]) rfl

/-- Notes do not change where a recorder keeps its notes. -/
theorem Keeps.notes_jot (hk : R.Keeps D k w) (ls : Store .list (Array Value))
    (ts : Store .tuple (Array Value)) :
    World.ownValue { w with lists := ls, tuples := ts } (.observer R.observer)
      Observer.notesField = .list R.notes := by
  rw [World.ownValue_eq, carried_jot, ← World.ownValue_eq]
  exact hk.ownValue.1

/-- A recorder that has changed its list of open events adds a note to its other list. -/
theorem Keeps.jots (hk : R.Keeps D k σ.world) {σ' : Moment ε κ} {ls : Store .list (Array Value)}
    {ts : Store .tuple (Array Value)} {opened : List Value} {note : Value} {n : Note}
    (hopened : (ls.get R.opened).toList = opened)
    (hls : ∀ l, l ≠ R.opened → ls.get l = σ.world.lists.get l) (hts : σ.world.tuples.Grows id ts)
    (hw : σ'.world =
      { σ.world with lists := ls.modify R.notes (·.push note), tuples := ts })
    (hnote : World.Says σ'.world note n) (hσ : σ'.window = .open)
    (hcalls : ∃ cs, σ'.calls = σ.calls ++ cs ∧
      ∀ c ∈ cs, ∃ (l : Ref .list) (m : Message) (args : List Value),
        c = .send (.list l) m args ∧ m ≠ .handle) :
    R.Jots D ⟨k.notes ++ [n], opened⟩ σ σ' where
  world := ⟨_, _, hw, fun l hn ho => by simp [Store.get_modify, hn, hls l ho], hts⟩
  keeps := by
    rw [hw] at hnote ⊢
    refine hk.jot ?_ ?_ hts hnote
    · simp [Store.get_modify, Ne.symm hk.apart, hopened]
    · simp [Store.get_modify, hls _ hk.apart]
  window := hσ
  calls := hcalls

/-- The lists of a recorder are none of a document. -/
theorem Keeps.ne_of_mem (hk : R.Keeps D k w) {l : Ref .list} (hl : D l) :
    l ≠ R.notes ∧ l ≠ R.opened := by
  constructor
  · rintro rfl
    exact hk.notesApart hl
  · rintro rfl
    exact hk.openApart hl

/-- What a recorder does about a beginning. -/
theorem hearBefore_yields (hρ : SparesLists ρ) (hk : R.Keeps D k σ.world)
    (hσ : σ.window = .open) (e : Event) (args : List Value)
    {Q : Outcome → Moment ε κ → Prop}
    (hQ : ∀ σ', R.Jots D (k.hear (.before e args)) σ σ' → Q (.ok .none) σ') :
    (alone (Walk.body F t)).Yields ρ σ (Walk.hearBefore F t R.observer (.event e) args) Q := by
  refine .bind (classOf_yields hk hσ fun σ₁ hw₁ hσ₁ hc₁ => ?_)
  refine begin_yields (hw₁ ▸ hk) hσ₁ fun σ₂ hw₂ hσ₂ hc₂ => ?_
  rw [hw₁] at hw₂
  refine .bind (appendTo_yields hρ (l := R.opened) (by rw [hw₂]; exact hk.ownValue.2.1)
    fun σ₃ hw₃ hσ₃ hc₃ => ?_)
  rw [hw₂] at hw₃
  refine .bind (alone_step (r := .ok (.tuple σ₃.world.tuples.next)) rfl ?_)
  refine .bind (alone_step (r := .ok (.tuple (σ₃.world.tuples.add args.toArray).next)) rfl ?_)
  refine .bind (appendTo_yields hρ (l := R.notes) ?_ fun σ₄ hw₄ hσ₄ hc₄ => .pure (hQ σ₄ ?_))
  · simp only [Moment.stepped, hw₃]
    exact hk.notes_jot ..
  · -- the arguments make a row of their own, and the note another one
    let ts₁ := σ.world.tuples.add args.toArray
    let row := #[Recording.beforeWord, .event e, .tuple σ.world.tuples.next]
    let opening := σ.world.lists.modify R.opened (·.push (.event e))
    have hw : σ₄.world = { σ.world with
        lists := opening.modify R.notes (·.push (.tuple ts₁.next)), tuples := ts₁.add row } := by
      rw [hw₄]
      simp only [Moment.stepped, hw₃]
      rfl
    have hopened : (opening.get R.opened).toList = k.opened ++ [.event e] := by
      rw [← hk.opened]
      simp [opening, World.items, Store.get_modify]
    refine hk.jots hopened (fun l hl => by simp [opening, Store.get_modify, hl])
      ((Store.grows_add id ..).trans (Store.grows_add id ..)) hw ?_ hσ₄
      ⟨[.send (.list R.opened) .append [.event e],
        .send (.list R.notes) .append [.tuple ts₁.next]], ?_, ?_⟩
    · have hargs : σ.world.tuples.next.index < ts₁.cells.size := by
        simp [ts₁, Store.next, Store.add]
      have hsame := (Store.grows_add id ts₁ row).2 _ hargs
      simp only [id] at hsame
      rw [hw]
      refine ⟨ts₁.next, rfl, by simp [Store.next, Store.add], σ.world.tuples.next, ?_, ?_, ?_⟩
      · exact Nat.lt_of_lt_of_le hargs (Store.grows_add id ts₁ row).1
      · simp [World.row, Store.get_add, row]
      · simp [World.row, hsame, ts₁, Store.get_add]
    · rw [hc₄]
      simp only [Moment.stepped, hc₃, hc₂, hc₁, hw₃, List.append_assoc]
      rfl
    · intro c hc
      simp only [List.mem_cons, List.not_mem_nil, or_false] at hc
      rcases hc with rfl | rfl <;> exact ⟨_, _, _, rfl, by simp⟩

/-- The innermost of the open events is closed, if there is one. -/
theorem closeEvent_yields (hρ : SparesLists ρ) (hk : R.Keeps D k σ.world)
    (hσ : σ.window = .open) {Q : Outcome → Moment ε κ → Prop}
    (hQ : ∀ σ' : Moment ε κ, ∀ ls, σ'.world = { σ.world with lists := ls } →
      (ls.get R.opened).toList = k.opened.dropLast →
      (∀ l, l ≠ R.opened → ls.get l = σ.world.lists.get l) → σ'.window = .open →
      (∃ cs, σ'.calls = σ.calls ++ cs ∧ ∀ c ∈ cs, c = .send (.list R.opened) .pop []) →
      Q (.ok (k.opened.getLast?.getD .none)) σ') :
    (alone (Walk.body F t)).Yields ρ σ (Walk.closeEvent R.observer Observer.openField) Q := by
  have hopened : (σ.world.lists.get R.opened).toList = k.opened := hk.opened
  refine .bind (alone_look (r := .ok (.list R.opened)) (congrArg Except.ok hk.ownValue.2.1) ?_)
  refine .bind (alone_look (r := .ok !k.opened.isEmpty) ?_ ?_)
  · simp [Moment.stepped, World.isTrue, ← hopened]
  have hstepped : ∀ σ₁ : Moment ε κ, σ₁.window = .open → (σ₁.stepped σ.world).window = .open := by
    intro σ₁ h
    simp [Moment.stepped, h, Window.next]
  rcases List.eq_nil_or_concat k.opened with hnil | ⟨xs, x, hlast⟩
  -- nothing is open, and nothing is taken out of the list
  · simp only [hnil, List.isEmpty_nil, Bool.not_true, Bool.false_eq_true, if_false]
    refine .pure ?_
    have hQ' := hQ ((σ.stepped σ.world).stepped (σ.stepped σ.world).world) σ.world.lists rfl
      (by rw [hopened, hnil]; rfl) (fun _ _ => rfl) (hstepped _ (hstepped _ hσ))
      ⟨[], by simp [Moment.stepped], by simp⟩
    rwa [hnil] at hQ'
  · rw [List.concat_eq_append] at hlast
    have hitems : σ.world.items R.opened = xs ++ [x] := hk.opened.trans hlast
    have hne : (!k.opened.isEmpty) = true := by simp [hlast]
    simp only [hne, if_true]
    refine list_yields hρ (r := .ok x) (w := σ.world.without R.opened xs.length) (by simp) rfl rfl
      rfl rfl ?_ fun σ' hw hσ' hcalls => ?_
    · exact ofList_pop_run hitems
    · have hx : k.opened.getLast?.getD .none = x := by simp [hlast]
      rw [← hx]
      refine hQ σ' (σ.world.lists.modify R.opened (·.eraseIdxIfInBounds xs.length)) hw ?_ ?_ hσ'
        ⟨_, hcalls, by simp⟩
      · have hsize : (σ.world.lists.get R.opened).size = xs.length + 1 := by
          have hlen := congrArg List.length hitems
          simpa [World.items] using hlen
        have hlist : (σ.world.lists.get R.opened).toList = xs ++ [x] := hitems
        simp only [Store.get_modify, if_true, Array.eraseIdxIfInBounds_eq]
        rw [dif_pos (by omega), Array.toList_eraseIdx, hlist, hlast]
        simp [List.eraseIdx_append_of_length_le]
      · intro l hl
        simp [Store.get_modify, hl]

/-- What a recorder does about an end. -/
theorem hearAfter_yields (hρ : SparesLists ρ) (hk : R.Keeps D k σ.world) (hσ : σ.window = .open)
    {Q : Outcome → Moment ε κ → Prop}
    (hQ : ∀ σ', R.Jots D (k.hear .after) σ σ' → Q (.ok .none) σ') :
    (alone (Walk.body F t)).Yields ρ σ (Walk.hearAfter F t R.observer) Q := by
  refine .bind (classOf_yields hk hσ fun σ₁ hw₁ hσ₁ hc₁ => ?_)
  refine begin_yields (hw₁ ▸ hk) hσ₁ fun σ₂ hw₂ hσ₂ hc₂ => ?_
  rw [hw₁] at hw₂
  refine .bind (closeEvent_yields hρ (hw₂ ▸ hk) hσ₂ fun σ₃ ls hw₃ ho hls hσ₃ hc₃ => ?_)
  rw [hw₂] at hw₃ hls
  refine .bind (alone_step (r := .ok (.tuple σ₃.world.tuples.next)) rfl ?_)
  refine .bind (appendTo_yields hρ (l := R.notes) ?_ fun σ₄ hw₄ hσ₄ hc₄ => .pure (hQ σ₄ ?_))
  · simp only [Moment.stepped, hw₃]
    exact hk.notes_jot ..
  · let row := #[Recording.afterWord, k.opened.getLast?.getD .none]
    let note := Value.tuple σ.world.tuples.next
    have hw : σ₄.world = { σ.world with
        lists := ls.modify R.notes (·.push note), tuples := σ.world.tuples.add row } := by
      rw [hw₄]
      simp only [Moment.stepped, hw₃]
      rfl
    obtain ⟨cs, hcs, hall⟩ := hc₃
    refine hk.jots ho hls (Store.grows_add id ..) hw ?_ hσ₄
      ⟨cs ++ [.send (.list R.notes) .append [note]], ?_, ?_⟩
    · rw [hw]
      refine ⟨σ.world.tuples.next, rfl, ?_, ?_⟩
      · simp [Store.next, Store.add]
      · simp [World.row, Store.get_add, row]
    · rw [hc₄]
      simp only [Moment.stepped, hcs, hc₂, hc₁, hw₃, List.append_assoc]
      rfl
    · intro c hc
      rcases List.mem_append.1 hc with hc | hc
      · exact ⟨_, _, _, hall c hc, by simp⟩
      · rw [List.mem_singleton.1 hc]
        exact ⟨_, _, _, rfl, by simp⟩

/-- What a recorder does when it is told something. -/
theorem told_yields (hρ : SparesLists ρ) (hk : R.Keeps D k σ.world)
    (hσ : σ.window = .open) (n : Told) {Q : Outcome → Moment ε κ → Prop}
    (hQ : ∀ σ', R.Jots D (k.hear n) σ σ' → Q (.ok .none) σ') :
    (alone (Walk.body F t)).Yields ρ σ (Walk.body F t (n.call R.observer)) Q := by
  have hstepped : ((σ.stepped σ.world).stepped σ.world).window = .open := by
    simp [Moment.stepped, hσ, Window.next]
  have hkept : R.Keeps D k ((σ.stepped σ.world).stepped σ.world).world := hk
  have hQ' : ∀ σ', R.Jots D (k.hear n) ((σ.stepped σ.world).stepped σ.world) σ' →
      Q (.ok .none) σ' := fun σ' hj => hQ σ' ⟨hj.world, hj.keeps, hj.window, hj.calls⟩
  cases n with
  | before e args =>
    have hm : σ.world.member (.observer R.observer) Message.before.name = .ok (.bound .before) :=
      World.member_of_understands
        (by simp [World.understands, hk.cls, ObserverClass.takesNotifications])
        (hk.unhidden .before (by simp))
    have hp : σ.world.argumentProblem? (.observer R.observer) .before
        (.event e :: args : List Value).length = none := by
      simp [World.argumentProblem?, World.parametersOf, Parameters.problem?, Parameters.atLeast]
    refine .bind (alone_look hm (.bind (alone_look (r := .ok none) (congrArg Except.ok hp) ?_)))
    exact hearBefore_yields hρ hkept hstepped e args hQ'
  | after =>
    have hm : σ.world.member (.observer R.observer) Message.after.name = .ok (.bound .after) :=
      World.member_of_understands
        (by simp [World.understands, hk.cls, ObserverClass.takesNotifications])
        (hk.unhidden .after (by simp))
    refine .bind (alone_look hm (.bind (alone_look (r := .ok none) rfl ?_)))
    exact hearAfter_yields hρ hkept hstepped hQ'

/-! ## Walks with a recorder -/

/-- The setting of a walk whose only observer is a recorder. -/
def setting (R : Recorder) (X : Cast) (D : Ref .list → Prop) (root : Agenda κ) : Setting ε κ where
  cast := X
  strict := false
  lists := D
  root
  inv w L := R.Keeps D (.after (Occasion.callbacks L)) w
  verdict _ := none
  rule := .free ε κ

/-- The scene of a walk stays as it is while a recorder takes notes. -/
theorem Jots.scene {X : Cast} {strict : Bool} {root : Agenda κ} {pins : List Pin} {h : Hold}
    {σ' : Moment ε κ} (hj : R.Jots D k σ σ')
    (hs : GuardedWalk.Scene X strict D root pins h σ.world) :
    GuardedWalk.Scene X strict D root pins h σ'.world := by
  obtain ⟨ls, ts, hw, hls, hts⟩ := hj.world
  rw [hw]
  exact Scene.jot hs (fun l hl =>
    hls l (hj.keeps.ne_of_mem hl).1 (hj.keeps.ne_of_mem hl).2) hts

/-- Others hear of nothing while a recorder takes notes. -/
theorem Jots.heard {X : Cast} {σ' : Moment ε κ} (hj : R.Jots D k σ σ') :
    X.occasions σ'.calls = X.occasions σ.calls := by
  obtain ⟨cs, hcs, hlists⟩ := hj.calls
  have hquiet : X.occasions cs = [] := by
    rw [Cast.occasions, List.filterMap_eq_nil_iff]
    intro c hc
    obtain ⟨l, m, args, rfl, -⟩ := hlists c hc
    cases m <;> rfl
  rw [hcs, Cast.occasions, List.filterMap_append]
  exact (congrArg (_ ++ ·) hquiet).trans (List.append_nil _)

theorem lasts_setting (R : Recorder) (X : Cast) (D : Ref .list → Prop) (root : Agenda κ) :
    (R.setting X D root : Setting ε κ).Lasts := fun _ _ _ hf hi => Keeps.mild hi hf.toMild

/-- A walk goes on while its recorder takes notes. -/
theorem hosts {X : Cast} {root : Agenda κ} (hX : X.observers = [R.observer])
    (ht : X.thread = t) (hroot : root.IsWritten) :
    (R.setting X D root).Hosts F (alone (Walk.body F t)) where
  body c _ := by rw [← ht]; rfl
  own _ _ _ := trivial
  coded := hroot.coded F X.thread _
  move pins h σ L hw hi := ⟨hw, hi⟩
  onward w w' L hf hi := Keeps.mild hi hf.toMild
  guards _ _ _ w L v hw hv hi := by
    obtain ⟨b, w', hrun, hstill, -⟩ := World.install_run F.obstruct hv.1 hw.assembled.guardOpen
    rw [hrun]
    show R.Keeps D (.after (Occasion.callbacks (L ++ [.guarded v]))) w'
    rw [Occasion.callbacks_guarded]
    exact Keeps.mild hi hstill.toMild
  hears pins s d L σ o n ho _ hg := by
    have hoccasions := hg.occasions_calling (Cast.occasion?_call ho n)
    have ho' : o ∈ X.observers := ho
    rw [hX, List.mem_singleton] at ho'
    subst ho'
    have hopen : (σ.calling (n.call R.observer)).window = .open := by cases n <;> rfl
    have hkept : R.Keeps D (.after (Occasion.callbacks L))
        (σ.calling (n.call R.observer)).world := hg.inv
    refine .invoke rfl trivial
      (told_yields (fun _ _ _ _ _ => trivial) hkept hopen n fun σ' hj => ?_)
    refine ⟨⟨hj.scene hg.scene, ?_, ?_, rfl⟩, rfl⟩
    · show R.Keeps D (.after (Occasion.callbacks (L ++ [.told R.observer n]))) σ'.world
      rw [Occasion.callbacks_told, Record.after_append]
      exact hj.keeps
    · exact hj.heard.trans hoccasions
  answers pins h L σ c hc := by
    rw [show (R.setting X D root : Setting ε κ).root.asks = [] from hroot.asks] at hc
    cases hc

end Recorder

end GuardedWalk

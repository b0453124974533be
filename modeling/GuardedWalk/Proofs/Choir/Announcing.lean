import GuardedWalk.Proofs.Choir.Role
import GuardedWalk.Proofs.Walk.Announcing

/-!
# Announcements beside a walk

A text can be announced at any time and on any thread. No token is needed for that, and no guard can
be put on a text, so between two callbacks an announcement leaves alone all that others rely on.
Each observer is told once that the announcement begins and later once that it ends, whatever others
do meanwhile.

## Main definitions

* `GuardedWalk.World.Spares` — what leaves alone all that others rely on.
* `GuardedWalk.Cast.announcing` — the role of an announcement.
* `GuardedWalk.Cast.Recites` — a part of an announcement lets observers hear of something.

## Main results

* `GuardedWalk.Cast.Recites.tellAll` — a round of callbacks.
* `GuardedWalk.Cast.awaits_announcement` — what is still to come at the beginning of an
  announcement.
-/

set_option autoImplicit false

namespace GuardedWalk

open Walk (Steps)

variable {ε κ α : Type}

namespace World

/-- What leaves alone all that others rely on: objects are added, and nothing else changes but the
log. -/
structure Spares (w w' : World ε) : Prop extends Beside (fun _ => True) w w' where
  sameTokens : w'.tokens = w.tokens

variable {w w₁ w' : World ε}

theorem Spares.refl (w : World ε) : Spares w w := ⟨.refl _ w, rfl⟩

theorem Spares.trans (h : Spares w w₁) (h' : Spares w₁ w') : Spares w w' :=
  ⟨h.toBeside.trans h'.toBeside, h'.sameTokens.trans h.sameTokens⟩

/-- What others rely on depends on neither tuples nor the log. -/
theorem spares_of_grows {ts : Store .tuple (Array Value)} {j : List LogRecord}
    (ht : w.tuples.Grows id ts) : Spares w { w with tuples := ts, journal := j } :=
  ⟨beside_contents (fun _ _ => rfl) ht, rfl⟩

/-- A text shows nothing that could be replaced. -/
theorem install_text (obstruct : Obstruction ε) (w : World ε) (g : Ref .guard) (text : String) :
    install obstruct w g (.text text) = (.ok false, w) := by
  have hmember : w.member (.text text) Node.acceptField =
      .error (.missingAttribute "str" Node.acceptField) := by
    rw [member_of_getter_none rfl]
    rfl
  exact install_of_missing hmember

end World

open World (Spares)

namespace Cast

variable {X : Cast} {F : Foreign ε κ} {D : Ref .list → Prop} {R : Recorder} {k : Record}
  {w w₁ : World ε}

theorem Stands.spares {w' : World ε} (h : X.Stands D R k w) (hw : Spares w w') :
    X.Stands D R k w' :=
  ⟨h.assembled.frame hw.toFrame fun _ _ => trivial, h.keeps.beside hw.toBeside trivial trivial⟩

/-- The role of an announcement of a text on a thread. -/
def announcing (X : Cast) (D : Ref .list → Prop) (t : Thread) (text : String) : Role ε D where
  thread := t
  bears _ _ := True
  does := Spares
  tells := X.toAll (.before .announce [.text text]) ++ X.toAll .after
  ends o := failure? o = none
  bears_beside _ := trivial
  bears_trans _ _ := trivial
  does_refl := .refl
  does_trans h h' := h.trans h'

/-! ## Parts of an announcement -/

/-- A part of an announcement lets observers hear of something and ends with a result, whatever it
is a part of. -/
def Recites (X : Cast) (F : Foreign ε κ) (D : Ref .list → Prop) (R : Recorder) (t : Thread)
    (text : String) (w : World ε) (p : Steps ε κ Value) (L : List Callback) : Prop :=
  ∀ k, X.Stands D R k w → ∀ next stack L',
    (∀ w' k' a, X.Stands D R k' w' →
      X.Foresees F R (X.announcing D t text) ⟨next (.ok a), stack⟩ w' k' L') →
    X.Foresees F R (X.announcing D t text) ⟨Program.bind (α := Outcome) p next, stack⟩ w k (L ++ L')

namespace Recites

variable {t : Thread} {text : String} {p : Steps ε κ Value} {L L' : List Callback}

/-- The walker is put together as it was made at the time. -/
theorem assembled (h : X.Assembled w → X.Recites F D R t text w p L) :
    X.Recites F D R t text w p L := fun k hw => h hw.assembled k hw

theorem pure (a : Value) : X.Recites F D R t text w (Pure.pure a) [] :=
  fun k hw _ _ _ h => h w k a hw

theorem bind {f : Value → Steps ε κ Value} (hp : X.Recites F D R t text w p L)
    (hf : ∀ w' a, X.Recites F D R t text w' (f a) L') :
    X.Recites F D R t text w (p >>= f) (L ++ L') := by
  intro k hw next stack L'' h
  have hassoc : Program.bind (α := Outcome) (p >>= f : Steps ε κ Value) next =
      Program.bind (α := Outcome) p _ := Program.bind_assoc ..
  rw [hassoc, List.append_assoc]
  exact hp k hw _ _ _ fun w' k' a hw' => hf w' a k' hw' next stack L'' h

theorem bind_pure (hp : X.Recites F D R t text w p L) (b : Value) :
    X.Recites F D R t text w (do let _ ← p; return b) L := by
  have hboth : X.Recites F D R t text w (do let _ ← p; return b) (L ++ []) :=
    hp.bind fun _ _ => pure b
  rwa [List.append_nil] at hboth

/-- A step that leaves alone all that others rely on. -/
theorem step {change : World ε → Except Failure α × World ε} {a : α} {f : α → Steps ε κ Value}
    (h : change w = (.ok a, w₁)) (hw₁ : Spares w w₁) (hf : X.Recites F D R t text w₁ (f a) L) :
    X.Recites F D R t text w (Routine.atomically change >>= f) L := by
  intro k hw next stack L' hnext
  refine .goes rfl ?_ ?_
  · rw [h]
    exact hw₁
  · rw [h]
    exact hf k (hw.spares hw₁) next stack L' hnext

/-- A step that only looks at the world. -/
theorem look {f : World ε → Except Failure α} {a : α} {g : α → Steps ε κ Value} (h : f w = .ok a)
    (hg : X.Recites F D R t text w (g a) L) :
    X.Recites F D R t text w (Routine.examine f >>= g) L :=
  step (by rw [h]) (.refl w) hg

/-- A call that observers do not hear of. -/
theorem call {c : Call κ} (hc : X.isOwn c = true)
    (h : X.Recites F D R t text w (Walk.body F t c) L) :
    X.Recites F D R t text w (Routine.invoke c) L := by
  intro k hw next stack L' hnext
  have hstep : (⟨.call c next, stack⟩ : Voice ε κ).advance X.isOutside (Walk.body F t) w =
      some (⟨Walk.body F t c, next :: stack⟩, w) := by
    simp [Voice.advance, isOutside, occasion?_of_isOwn hc]
  refine .goes hstep (.refl w) ?_
  have hin := h k hw .done (next :: stack) L' fun w' k' a hw' =>
    .goes rfl (.refl w') (hnext w' k' a hw')
  rwa [Program.bind_done] at hin

/-- An observer is told something. -/
theorem tell {o : Ref .observer} (ho : o ∈ X.observers) (n : Told) :
    X.Recites F D R t text w (Routine.invoke (n.call o)) [(o, n)] :=
  fun _ hw _ _ _ hnext => .calls (occasion?_call ho n) hw fun u w' _ _ hw' => hnext w' _ u hw'

/-- A message to an object that has a method for it and is given as many arguments as it takes. -/
theorem method {v : Value} {m : Message} {args : List Value}
    (hc : X.isOwn (.send v m args : Call κ) = true) (ha : m ≠ .accept)
    (hn : m.needsNoObject = false) (hm : w.understands v m = true) (hopen : w.Unhidden v)
    (hp : w.argumentProblem? v m args.length = none)
    (h : X.Recites F D R t text w (Walk.answer F t v m args) L) :
    X.Recites F D R t text w (Walk.send v m args) L := by
  refine call hc (look (a := .bound m) ?_ ?_)
  · rw [World.member_of_understands hm (hopen m ha), hn]
    rfl
  · exact look (f := fun w => .ok (w.argumentProblem? v m args.length)) (congrArg Except.ok hp) h

/-! ## Rounds of callbacks -/

/-- All observers from a place on are told the same. -/
theorem each {n : Told} (rest : List (Ref .observer)) (i : Nat)
    (hi : X.observers.drop i = rest) (w : World ε) :
    X.Recites F D R t text w (Routine.invoke (.each (.tuple X.notified i) n.turn))
      (rest.map fun o => (o, n)) := by
  induction rest generalizing i w with
  | nil =>
    refine assembled fun hw => call rfl (look (a := none) ?_ (pure _))
    rw [World.advance_tuple, hw.notified]
    have hlen : X.observers.length ≤ i := List.drop_eq_nil_iff.1 hi
    simp [List.getElem?_eq_none hlen]
  | cons o rest ih =>
    have ho : X.observers[i]? = some o := by
      rw [← List.head?_drop, hi]
      rfl
    have hrest : X.observers.drop (i + 1) = rest := by
      rw [← List.tail_drop, hi]
      rfl
    refine assembled fun hw => call rfl
      (look (a := some (.observer o, .tuple X.notified (i + 1))) ?_ ?_)
    · rw [World.advance_tuple, hw.notified]
      simp [ho]
    · show X.Recites F D R t text w (Walk.takeTurn (.observer o) n.turn >>= _) ([(o, n)] ++ _)
      rw [Setting.takeTurn_turn]
      exact (tell (List.mem_of_getElem? ho) n).bind fun w' _ => ih (i + 1) hrest w'

/-- A round of callbacks is logged and made. -/
theorem tellAll (phase : Message) (e : Event) (n : Told) (w : World ε) :
    X.Recites F D R t text w (Walk.tellAll X.adapter phase (.event e) n.turn) (X.toAll n) := by
  refine assembled fun hw => ?_
  refine step (Act.read_run (World.member_event (hw.events e))) (.refl w) ?_
  refine step (a := .tuple X.notified) ?_ (.refl w) ?_
  · rw [Act.run_own, World.ownValue_of_carried hw.adapterNotified]
  refine look (a := X.observers.length) ?_ ?_
  · have hsize : (w.tuples.get X.notified).size = X.observers.length := by
      have := congrArg List.length hw.notified
      simpa [World.row] using this
    simp [World.length, World.lengthWithin, hsize]
  have hlog : ∃ j, (Act.log .debug .broadcast fun w => do
      return phase.name ++ " " ++ (← w.plain (.text e.methodName)) ++ " -> " ++
        toString X.observers.length ++ " observer(s)").run w = (.ok (), { w with journal := j }) :=
    w.log_eq ..
  obtain ⟨j, hj⟩ := hlog
  refine step hj (World.spares_of_grows (.refl ..)) ?_
  exact look (a := .tuple X.notified 0) rfl (each X.observers 0 rfl _)

/-! ## An announcement -/

/-- The first round of an announcement. -/
theorem before (w : World ε) :
    X.Recites F D R t text w
      (Walk.send (.adapter X.adapter) .before [.event .announce, .text text])
      (X.toAll (.before .announce [.text text])) := by
  refine assembled fun hw => method (by simp [isOwn]) (by simp) rfl rfl hw.adapterOpen rfl ?_
  refine step (a := .guard X.guard) ?_ (.refl w) ?_
  · rw [Act.run_own, World.ownValue_of_carried hw.adapterGuard]
  have hinstall : X.Recites F D R t text w
      (Walk.send (.guard X.guard) .install [.text text]) [] := by
    refine method rfl (by simp) rfl rfl hw.guardOpen rfl ?_
    exact step (World.install_text ..) (.refl w) (pure _)
  exact hinstall.bind fun w' _ => tellAll .before .announce (.before .announce [.text text]) w'

/-- The second round of an announcement. -/
theorem after (w : World ε) :
    X.Recites F D R t text w (Walk.send (.adapter X.adapter) .after [.event .announce])
      (X.toAll .after) :=
  assembled fun hw => method (by simp [isOwn]) (by simp) rfl rfl hw.adapterOpen rfl
    (tellAll .after .announce .after w)

/-- What a walker does about a text that is announced, once it has put the text into a tuple. -/
theorem broadcast {row : Ref .tuple} (hrow : w.row row = [.text text]) :
    X.Recites F D R t text w
      (Walk.send (.walker X.walker) .broadcast [.event .announce, .tuple row])
      (X.toAll (.before .announce [.text text]) ++ X.toAll .after) := by
  refine assembled fun hw => method rfl (by simp) rfl rfl hw.walkerOpen rfl ?_
  have hown : ∀ w : World ε, X.Assembled w →
      (Act.own (.walker X.walker) Walker.broadcastField : Act ε Value).run w =
        (.ok (.adapter X.adapter), w) := by
    intro w hw
    rw [Act.run_own, World.ownValue_of_carried hw.broadcast]
  refine step (hown w hw) (.refl w) (look (a := .bound .before) ?_ (look (a := [.text text]) ?_ ?_))
  · exact World.member_of_understands (v := .adapter X.adapter) rfl
      (hw.adapterOpen .before (by simp))
  · simp only [World.spread, World.hasElements, World.elementsOf, World.iterable,
      World.iterableWithin, if_true]
    exact congrArg Except.ok hrow
  refine (before w).bind fun w₁ _ => ?_
  exact assembled fun hw₁ => step (hown w₁ hw₁) (.refl w₁) ((after w₁).bind_pure Value.none)

/-- **Each observer is told that the announcement begins, and then that it ends.** -/
theorem announce (w : World ε) :
    X.Recites F D R t text w (Walk.send (.walker X.walker) (.entry .announce) [.text text])
      (X.toAll (.before .announce [.text text]) ++ X.toAll .after) := by
  refine assembled fun hw => method (by simp [isOwn]) (by simp) rfl rfl hw.walkerOpen rfl ?_
  have hrow : (w.storeTuple [.text text]).2.row w.tuples.next = [.text text] := by
    simp [World.storeTuple, World.row, Store.get_add]
  exact step (a := w.tuples.next) rfl (World.spares_of_grows (Store.grows_add ..))
    ((broadcast hrow).bind_pure Value.none)

end Recites

variable {t : Thread} {text : String}

/-- **What is still to come at the beginning of an announcement**, whatever others do before. -/
theorem awaits_announcement (X : Cast) (F : Foreign ε κ) (D : Ref .list → Prop) (R : Recorder)
    (t : Thread) (text : String) (w : World ε) (k : Record) :
    X.Awaits F R (X.announcing D t text)
      ⟨Walk.send (.walker X.walker) (.entry .announce) [.text text], []⟩ w k
      (X.announcing D t text : Role ε D).tells := by
  intro w' ts _ hw
  have hall : X.Recites F D R t text w' _ _ := Recites.announce w'
  have hend := hall _ hw .done [] [] fun w' k' a hw' => .ended rfl hw'
  rwa [Program.bind_done, List.append_nil] at hend

end Cast

end GuardedWalk

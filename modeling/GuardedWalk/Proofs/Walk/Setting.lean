import GuardedWalk.Proofs.Run.Inclusion
import GuardedWalk.Proofs.Walk.Scene
import GuardedWalk.Walk

/-!
# Walks in their surroundings

A setting is all that is fixed while a walk goes on: who takes part, the agenda, what else holds
throughout, how the callbacks of the observers and the answers of others end, and a rule that is to
hold of all calls. Surroundings host a walk if they leave the scene as it is and let the walk's own
calls run as they should. How a walk goes is then said of its parts, one after the other: some of
them end with a result and nobody hears of it, others tell the observers something or ask others. A
callback that fails ends the walk, so what is to be told is told up to the first failure.

## Main definitions

* `GuardedWalk.Told`, `Callback` — what an observer is told.
* `GuardedWalk.Occasion` — what others hear of in a walk.
* `GuardedWalk.Setting` — what is fixed while a walk goes on.
* `GuardedWalk.Setting.Going` — a walk is in the middle of something.
* `GuardedWalk.Setting.Hosts` — surroundings in which a walk can go on.
* `GuardedWalk.Setting.tell` — what is told up to the first failure.
* `GuardedWalk.Setting.Ends`, `Tells`, `Delivers` — how a part of a walk goes.

## Main results

* `GuardedWalk.Setting.Going.step`, `Going.call` — a step and a call of a walk.
* `GuardedWalk.Setting.Tells.andThen` — what is told by one part after another.
-/

set_option autoImplicit false

namespace GuardedWalk

/-- What an observer is told. -/
inductive Told where
  /-- An event begins. -/
  | before (e : Event) (args : List Value)
  /-- An event ends; nothing says which. -/
  | after
deriving DecidableEq, Repr

/-- An observer with what it is told. -/
abbrev Callback : Type := Ref .observer × Told

/-- What observers are told at the beginning or at the end of what is announced. -/
def Notice.told : Notice → Told
  | before e args => .before e args
  | after _ => .after

/-- The call that is made to tell an observer something. -/
def Told.call {κ : Type} (o : Ref .observer) : Told → Call κ
  | .before e args => .send (.observer o) .before (.event e :: args)
  | .after => .send (.observer o) .after []

/-- The turn in which an observer is told something. -/
def Told.turn : Told → Turn
  | .before e args => .before (.event e) args
  | .after => .after

/-- Whether a call asks a policy about a foreign traversal. -/
def Call.isHandle {κ : Type} : Call κ → Bool
  | send _ .handle _ => true
  | _ => false

namespace Cast

variable {κ : Type}

/-- The callback that a call is, if it is one. -/
def heard? (X : Cast) : Call κ → Option Callback
  | .send (.observer o) .before (.event e :: args) =>
    if o ∈ X.observers then some (o, .before e args) else none
  | .send (.observer o) .after [] => if o ∈ X.observers then some (o, .after) else none
  | _ => none

/-- The callbacks among some calls. -/
def heard (X : Cast) (calls : List (Call κ)) : List Callback := calls.filterMap X.heard?

theorem heard?_call {X : Cast} {o : Ref .observer} (ho : o ∈ X.observers) (n : Told) :
    X.heard? (n.call o : Call κ) = some (o, n) := by
  cases n <;> simp [heard?, Told.call, ho]

theorem isHandle_call (o : Ref .observer) (n : Told) : (n.call o : Call κ).isHandle = false := by
  cases n <;> rfl

/-- Each observer is told the same, one after the other. -/
def toAll (X : Cast) (n : Told) : List Callback := X.observers.map fun o => (o, n)

/-- Each observer is told of all notices. -/
def announced (X : Cast) (ns : List Notice) : List Callback := ns.flatMap fun n => X.toAll n.told

@[simp] theorem announced_nil (X : Cast) : X.announced [] = [] := rfl

@[simp] theorem announced_append (X : Cast) (ns ns' : List Notice) :
    X.announced (ns ++ ns') = X.announced ns ++ X.announced ns' := by
  simp [announced]

theorem announced_around (X : Cast) (e : Event) (args : List Value) (ns : List Notice) :
    X.announced (around e args ns) =
      X.toAll (.before e args) ++ X.announced ns ++ X.toAll .after := by
  simp [around, announced, Notice.told]

/-- Whether a walk makes a call itself, whatever its agenda is: it asks no policies and nobody else,
sends nothing to observers apart from the callbacks, calls the entry methods of no visitor but its
walker, and asks no node to be traversed by anybody else. -/
def isOwn (X : Cast) : Call κ → Bool
  | .send v m args =>
    match m with
    | .handle | .onEvent => false
    | .entry _ => v = .walker X.walker
    | .accept => args = [.walker X.walker]
    | .before | .after => v = .adapter X.adapter
    | _ => true
  | .foreign _ => false
  | _ => true

end Cast

/-- What others hear of in a walk. -/
inductive Occasion (κ : Type) where
  /-- An observer is told something. -/
  | told (o : Ref .observer) (n : Told)
  /-- Others are asked something. -/
  | asked (c : κ)
  /-- A guard has been put on a value. Nobody is called then, but others may see it. -/
  | guarded (v : Value)

namespace Occasion

variable {κ : Type}

/-- The call that is made on an occasion, if one is. -/
def call? : Occasion κ → Option (Call κ)
  | told o n => some (n.call o)
  | asked c => some (.foreign c)
  | guarded _ => none

/-- Whether a call is made. -/
def isCall (x : Occasion κ) : Bool := x.call?.isSome

/-- The callback that is made on an occasion, if one is. -/
def callback? : Occasion κ → Option Callback
  | told o n => some (o, n)
  | _ => none

/-- The callbacks among some occasions. -/
def callbacks (L : List (Occasion κ)) : List Callback := L.filterMap callback?

@[simp] theorem callbacks_append (L L' : List (Occasion κ)) :
    callbacks (L ++ L') = callbacks L ++ callbacks L' := by
  simp [callbacks]

theorem callbacks_told (L : List (Occasion κ)) (o : Ref .observer) (n : Told) :
    callbacks (L ++ [told o n]) = callbacks L ++ [(o, n)] := by
  simp [callbacks, callback?]

theorem callbacks_guarded (L : List (Occasion κ)) (v : Value) :
    callbacks (L ++ [guarded v]) = callbacks L := by
  simp [callbacks, callback?]

theorem callbacks_filter (L : List (Occasion κ)) : callbacks (L.filter isCall) = callbacks L := by
  induction L with
  | nil => rfl
  | cons x rest ih =>
    cases x with
    | told o n => exact congrArg ((o, n) :: ·) ih
    | asked c => exact ih
    | guarded v => exact ih

end Occasion

namespace Cast

variable {κ : Type} {X : Cast}

/-- The occasion that a call is, if it is one. -/
def occasion? (X : Cast) : Call κ → Option (Occasion κ)
  | .foreign c => some (.asked c)
  | c => (X.heard? c).map fun p => .told p.1 p.2

/-- The occasions among some calls. -/
def occasions (X : Cast) (calls : List (Call κ)) : List (Occasion κ) :=
  calls.filterMap X.occasion?

theorem occasion?_call {o : Ref .observer} (ho : o ∈ X.observers) (n : Told) :
    X.occasion? (n.call o : Call κ) = some (.told o n) := by
  have h := heard?_call (κ := κ) ho n
  cases n <;> simpa [occasion?, Told.call] using h

/-- A call that tells an observer something is no other occasion. -/
theorem told_of_call {o : Ref .observer} {n : Told} {x : Occasion κ}
    (h : X.occasion? (n.call o : Call κ) = some x) : x = .told o n := by
  by_cases ho : o ∈ X.observers
  · exact (Option.some.inj ((occasion?_call ho n).symm.trans h)).symm
  · cases n <;> simp [occasion?, heard?, Told.call, ho] at h

/-- A callback is the call that makes it. -/
theorem heard?_eq_some_iff {o : Ref .observer} {n : Told} {c : Call κ} :
    X.heard? c = some (o, n) ↔ c = n.call o ∧ o ∈ X.observers := by
  refine ⟨fun h => ?_, fun ⟨hc, ho⟩ => hc ▸ heard?_call ho n⟩
  unfold heard? at h
  split at h
  case h_1 | h_2 =>
    split at h
    · rename_i ho
      obtain ⟨rfl, rfl⟩ := Prod.mk.inj (Option.some.inj h)
      exact ⟨rfl, ho⟩
    · cases h
  case h_3 => cases h

/-- What an observer is told is the call that tells it. -/
theorem call_of_told {o : Ref .observer} {n : Told} {c : Call κ}
    (h : X.occasion? c = some (.told o n)) : c = n.call o ∧ o ∈ X.observers := by
  cases c with
  | send v m args =>
    obtain ⟨p, hp, hsome⟩ := Option.map_eq_some_iff.1 h
    obtain ⟨rfl, rfl⟩ := Occasion.told.inj hsome
    exact heard?_eq_some_iff.1 hp
  | foreign c => cases h
  | _ => cases h

theorem occasion?_of_isOwn {c : Call κ} (hc : X.isOwn c = true) : X.occasion? c = none := by
  cases c with
  | send v m args =>
    cases m
    case before | after =>
      obtain rfl : v = .adapter X.adapter := of_decide_eq_true hc
      rfl
    all_goals cases v <;> rfl
  | foreign c => cases hc
  | _ => rfl

theorem isCall_of_occasion? {c : Call κ} {x : Occasion κ} (hx : X.occasion? c = some x) :
    x.isCall = true := by
  cases c with
  | foreign c =>
    obtain rfl := Option.some.inj hx
    rfl
  | send v m args =>
    obtain ⟨p, -, rfl⟩ := Option.map_eq_some_iff.1 hx
    rfl
  | _ => cases hx

/-- The callbacks among some calls are those of the occasions. -/
theorem callbacks_occasions (calls : List (Call κ)) :
    Occasion.callbacks (X.occasions calls) = X.heard calls := by
  have hsame : ∀ o : Option Callback,
      (o.map fun p => (.told p.1 p.2 : Occasion κ)).bind Occasion.callback? = o := by
    intro o
    cases o <;> rfl
  have hc : ∀ c : Call κ, (X.occasion? c).bind Occasion.callback? = X.heard? c := by
    intro c
    cases c with
    | send v m args => exact hsame _
    | _ => rfl
  rw [occasions, Occasion.callbacks, heard, List.filterMap_filterMap]
  exact congrArg (List.filterMap · calls) (funext hc)

/-- Each observer is told the same, one after the other. -/
def round (X : Cast) (n : Told) : List (Occasion κ) := X.observers.map fun o => .told o n

theorem callbacks_round (n : Told) :
    Occasion.callbacks (X.round n : List (Occasion κ)) = X.toAll n := by
  simp [round, toAll, Occasion.callbacks, List.filterMap_map, Function.comp_def,
    Occasion.callback?]

/-- What others hear of an event, given what they hear between its two rounds of callbacks. A guard
is put on the first argument of the event before the first round. -/
def around (X : Cast) (e : Event) (args : List Value) (told : List (Occasion κ)) :
    List (Occasion κ) :=
  args.head?.toList.map .guarded ++ X.round (.before e args) ++ told ++ X.round .after

theorem callbacks_around (e : Event) (args : List Value) (told : List (Occasion κ)) :
    Occasion.callbacks (X.around e args told) =
      X.toAll (.before e args) ++ Occasion.callbacks told ++ X.toAll .after := by
  have hfirst : Occasion.callbacks
      (args.head?.toList.map Occasion.guarded : List (Occasion κ)) = [] := by
    cases args <;> rfl
  simp [around, hfirst, callbacks_round]

end Cast

namespace Agenda

variable {κ : Type}

/-- What others hear of in a walk through an agenda. -/
def occasions (X : Cast) : Agenda κ → List (Occasion κ)
  | done => []
  | ask c rest => .asked c :: rest.occasions X
  | entry e args _ inner rest => X.around e args (inner.occasions X) ++ rest.occasions X

/-- Observers are told what the agenda says. -/
theorem callbacks_occasions (X : Cast) (A : Agenda κ) :
    Occasion.callbacks (A.occasions X) = X.announced A.notices := by
  induction A with
  | done => rfl
  | ask c rest ih => exact ih
  | entry e args source inner rest ihInner ih =>
    simp [occasions, notices, Cast.callbacks_around, ihInner, ih, Cast.announced_around]

end Agenda

/-- What is fixed while a walk goes on. -/
structure Setting (ε κ : Type) where
  /-- Who takes part. -/
  cast : Cast
  /-- Whether guards may be put on nodes of foreign classes. -/
  strict : Bool
  /-- The lists that nodes keep their parts in. -/
  lists : Ref .list → Prop
  /-- What the walk comes across. -/
  root : Agenda κ
  /-- What else holds throughout, given the occasions so far. -/
  inv : World ε → List (Occasion κ) → Prop
  /-- How an occasion fails, if it does, given all occasions up to it. -/
  verdict : List (Occasion κ) → Option Failure
  /-- What holds of every call. -/
  rule : Surroundings.Rule ε κ

/-- How something fails, if it does. -/
def failure? {α : Type} : Except Failure α → Option Failure
  | .ok _ => none
  | .error f => some f

theorem failure?_map {α β : Type} (f : α → β) (r : Except Failure α) :
    failure? (r.map f) = failure? r := by
  cases r <;> rfl

/-- A guard has been put on the first argument of an event that begins. -/
def Told.Prepared {κ : Type} (L : List (Occasion κ)) : Told → Prop
  | .before _ (v :: _) => .guarded v ∈ L
  | _ => True

theorem Told.Prepared.mono {κ : Type} {L L' : List (Occasion κ)} {n : Told} (h : n.Prepared L)
    (hL : L ⊆ L') : n.Prepared L' := by
  cases n with
  | before e args =>
    cases args with
    | nil => trivial
    | cons v rest => exact hL h
  | after => trivial

namespace Setting

open Walk (Steps)

variable {ε κ α β : Type}

/-- The scene of a walk. -/
def Scene (Z : Setting ε κ) (pins : List Pin) (h : Hold) (w : World ε) : Prop :=
  GuardedWalk.Scene Z.cast Z.strict Z.lists Z.root pins h w

/-- A walk is in the middle of something, after some occasions. -/
structure Going (Z : Setting ε κ) (pins : List Pin) (h : Hold) (L : List (Occasion κ))
    (σ : Moment ε κ) : Prop where
  scene : Z.Scene pins h σ.world
  inv : Z.inv σ.world L
  heard : Z.cast.occasions σ.calls = L.filter Occasion.isCall
  window : σ.window = .open

/-- The same, but for what else holds throughout. -/
def withInv (Z : Setting ε κ) (I : World ε → List (Occasion κ) → Prop) : Setting ε κ :=
  { Z with inv := I }

/-- Surroundings that let a walk be: others leave the scene as it is, and everything that the walk
calls itself runs as it should and keeps the rule. -/
structure Bears (Z : Setting ε κ) (F : Foreign ε κ) (S : Surroundings ε κ) : Prop where
  body : ∀ c, Z.cast.isOwn c = true → S.body c = some (Walk.body F Z.cast.thread c)
  own : ∀ c σ, Z.cast.isOwn c = true → Z.rule c σ
  move : ∀ pins h (σ : Moment ε κ) L, Z.Scene pins h σ.world → Z.inv σ.world L →
    Z.Scene pins h (S.move σ) ∧ Z.inv (S.move σ) L

/-- Surroundings in which a walk can go on. Callbacks and answers of others only have to end as the
setting says. -/
structure Hosts (Z : Setting ε κ) (F : Foreign ε κ) (S : Surroundings ε κ) : Prop
    extends Z.Bears F S where
  coded : Z.root.Coded F Z.cast.thread (.walker Z.cast.walker)
  onward : ∀ w w' L, w.Onward Z.cast.token w' → Z.inv w L → Z.inv w' L
  guards : ∀ pins s n w L v, Z.Scene pins (.owned s n) w → w.Guardable Z.strict v → Z.inv w L →
    Z.inv (World.install F.obstruct w Z.cast.guard v).2 (L ++ [.guarded v])
  hears : ∀ pins s d L σ o (n : Told), o ∈ Z.cast.observers → n.Prepared L →
    Z.Going pins (.owned s d) L σ →
    S.Yields Z.rule σ (Routine.invoke (n.call o)) fun r σ' =>
      Z.Going pins (.owned s d) (L ++ [.told o n]) σ' ∧ failure? r = Z.verdict (L ++ [.told o n])
  answers : ∀ pins h L σ, ∀ c ∈ Z.root.asks, Z.Going pins h L σ →
    S.Yields Z.rule σ (Routine.invoke (.foreign c)) fun r σ' =>
      Z.Going pins h (L ++ [.asked c]) σ' ∧ failure? r = Z.verdict (L ++ [.asked c])

variable {Z : Setting ε κ} {F : Foreign ε κ} {S : Surroundings ε κ} {pins : List Pin} {h : Hold}
  {L : List (Occasion κ)} {σ : Moment ε κ}

/-! ## Steps and calls -/

theorem Going.returned (hg : Z.Going pins h L σ) : Z.Going pins h L σ.returned :=
  ⟨hg.scene, hg.inv, hg.heard, rfl⟩

theorem Going.unpin {p : Pin} (hg : Z.Going (p :: pins) h L σ) : Z.Going pins h L σ :=
  { hg with scene := GuardedWalk.Scene.unpin hg.scene }

theorem Going.before (hg : Z.Going pins h L σ) (hZ : Z.Bears F S) :
    Z.Scene pins h (S.before σ) ∧ Z.inv (S.before σ) L := by
  have hb : S.before σ = S.move σ := by simp [Surroundings.before, hg.window]
  rw [hb]
  exact hZ.move pins h σ L hg.scene hg.inv

/-- The walk goes on after a step. -/
theorem Going.stepped (hg : Z.Going pins h L σ) {pins' : List Pin} {h' : Hold}
    {L' : List (Occasion κ)} {w : World ε} (hw : Z.Scene pins' h' w) (hi : Z.inv w L')
    (hL : L'.filter Occasion.isCall = L.filter Occasion.isCall) :
    Z.Going pins' h' L' (σ.stepped w) :=
  ⟨hw, hi, hg.heard.trans hL.symm, by simp [Moment.stepped, hg.window, Window.next]⟩

/-- A step after which something else holds throughout. -/
theorem Going.turn (hg : Z.Going pins h L σ) (hZ : Z.Bears F S)
    (I : World ε → List (Occasion κ) → Prop)
    {change : World ε → Except Failure α × World ε} {Q : Except Failure α → Moment ε κ → Prop}
    (hs : ∀ w, Z.Scene pins h w → Z.inv w L → ∃ pins' h', Z.Scene pins' h' (change w).2 ∧
      I (change w).2 L ∧ ∀ σ', (Z.withInv I).Going pins' h' L σ' → Q (change w).1 σ') :
    S.Yields Z.rule σ (Routine.atomically change) Q := by
  obtain ⟨hscene, hinv⟩ := hg.before hZ
  obtain ⟨pins', h', hscene', hinv', hQ⟩ := hs _ hscene hinv
  exact .atomically (hQ _ ⟨hscene', hinv', hg.heard,
    by simp [Moment.stepped, hg.window, Window.next]⟩)

/-- A step of a walk. -/
theorem Going.step (hg : Z.Going pins h L σ) (hZ : Z.Hosts F S)
    {change : World ε → Except Failure α × World ε} {Q : Except Failure α → Moment ε κ → Prop}
    (hs : ∀ w, Z.Scene pins h w → Z.inv w L → ∃ pins' h', Z.Scene pins' h' (change w).2 ∧
      w.Onward Z.cast.token (change w).2 ∧ ∀ σ', Z.Going pins' h' L σ' → Q (change w).1 σ') :
    S.Yields Z.rule σ (Routine.atomically change) Q := by
  refine hg.turn hZ.toBears Z.inv fun w hw hi => ?_
  obtain ⟨pins', h', hw', honward, hQ⟩ := hs w hw hi
  exact ⟨pins', h', hw', hZ.onward _ _ L honward hi, hQ⟩

/-- A step that only looks at the world and finds what is known. -/
theorem Going.look (hg : Z.Going pins h L σ) (hZ : Z.Bears F S)
    {f : World ε → Except Failure α} {r : Except Failure α}
    {Q : Except Failure α → Moment ε κ → Prop} (hf : ∀ w, Z.Scene pins h w → f w = r)
    (hQ : ∀ σ', Z.Going pins h L σ' → Q r σ') : S.Yields Z.rule σ (Routine.examine f) Q :=
  hg.turn hZ Z.inv fun w hw hi => ⟨pins, h, hw, hi, by rw [hf w hw]; exact hQ⟩

/-- A step that only looks at the world. -/
theorem Going.read (hg : Z.Going pins h L σ) (hZ : Z.Bears F S) {f : World ε → α}
    {Q : Except Failure α → Moment ε κ → Prop}
    (hQ : ∀ w σ', Z.Scene pins h w → Z.Going pins h L σ' → Q (.ok (f w)) σ') :
    S.Yields Z.rule σ (Routine.read f) Q :=
  hg.turn hZ Z.inv fun w hw hi => ⟨pins, h, hw, hi, fun σ' => hQ w σ' hw⟩

/-- The value of an attribute that a value carries itself. -/
theorem Going.own (hg : Z.Going pins h L σ) (hZ : Z.Bears F S) {v x : Value} {name : String}
    {Q : Except Failure Value → Moment ε κ → Prop}
    (hx : ∀ w, Z.Scene pins h w → w.ownValue v name = x)
    (hQ : ∀ σ', Z.Going pins h L σ' → Q (.ok x) σ') : S.Yields Z.rule σ (Walk.own v name) Q :=
  hg.turn hZ Z.inv fun w hw hi => ⟨pins, h, hw, hi, by rw [Act.run_own, hx w hw]; exact hQ⟩

/-- The value of an attribute. -/
theorem Going.readAttr (hg : Z.Going pins h L σ) (hZ : Z.Bears F S) {v x : Value} {name : String}
    {Q : Except Failure Value → Moment ε κ → Prop}
    (hx : ∀ w, Z.Scene pins h w → w.member v name = .ok (.value x))
    (hQ : ∀ σ', Z.Going pins h L σ' → Q (.ok x) σ') :
    S.Yields Z.rule σ (Walk.readAttr v name) Q := by
  refine hg.turn hZ Z.inv fun w hw hi => ?_
  rw [Act.read_run (hx w hw)]
  exact ⟨pins, h, hw, hi, hQ⟩

/-- A log record is written. -/
theorem Going.log (hg : Z.Going pins h L σ) (hZ : Z.Bears F S)
    (hjournal : ∀ w j, Z.inv w L → Z.inv { w with journal := j } L) {severity : Severity}
    {channel : Channel} {text : World ε → Except Failure String}
    {Q : Except Failure Unit → Moment ε κ → Prop}
    (htext : ∀ w, Z.Scene pins h w → ∃ s, text w = .ok s)
    (hQ : ∀ σ', Z.Going pins h L σ' → Q (.ok ()) σ') :
    S.Yields Z.rule σ (Routine.act (Act.log severity channel text)) Q := by
  refine hg.turn hZ Z.inv fun w hw hi => ?_
  obtain ⟨s, hs⟩ := htext w hw
  obtain ⟨j, hj⟩ := w.log_eq severity channel s
  have hrun : (Act.log severity channel text).run w = (.ok (), { w with journal := j }) := by
    rw [← hj, ← hs]
    rfl
  rw [hrun]
  exact ⟨pins, h, Scene.journal hw j, hjournal w j hi, hQ⟩

/-- What else holds throughout does not depend on what is logged. -/
theorem Hosts.journal (hZ : Z.Hosts F S) (w : World ε) (j : List LogRecord) (hi : Z.inv w L) :
    Z.inv { w with journal := j } L :=
  hZ.onward _ _ L (.of_still (World.still_journal w j) rfl rfl) hi

/-- The walk goes on after it has made a call of its own. -/
theorem Going.calling (hg : Z.Going pins h L σ) {c : Call κ} (hc : Z.cast.isOwn c = true)
    (hw : Window.ofCall c = .open) : Z.Going pins h L (σ.calling c) := by
  refine ⟨hg.scene, hg.inv, ?_, hw⟩
  have hcons : Z.cast.occasions (σ.calls ++ [c]) = Z.cast.occasions σ.calls := by
    simp [Cast.occasions, Cast.occasion?_of_isOwn hc]
  exact hcons.trans hg.heard

/-- A call of a walk; what it stands for is on the way of it. -/
theorem Going.call_within (hg : Z.Going pins h L σ) (hZ : Z.Bears F S) {c : Call κ}
    (hc : Z.cast.isOwn c = true) (hw : Window.ofCall c = .open) {Q : Outcome → Moment ε κ → Prop}
    (hb : ∀ σ', Z.Going pins h L σ' →
      S.Includes (Routine.invoke c) σ (Walk.body F Z.cast.thread c) σ' →
      S.Yields Z.rule σ' (Walk.body F Z.cast.thread c) fun o σ₁ => Q o σ₁.returned) :
    S.Yields Z.rule σ (Routine.invoke c) Q :=
  .invoke (hZ.body c hc) (hZ.own c σ hc) (hb _ (hg.calling hc hw) (.body (hZ.body c hc)))

/-- A call of a walk. -/
theorem Going.call (hg : Z.Going pins h L σ) (hZ : Z.Bears F S) {c : Call κ}
    (hc : Z.cast.isOwn c = true) (hw : Window.ofCall c = .open) {Q : Outcome → Moment ε κ → Prop}
    (hb : ∀ σ', Z.Going pins h L σ' →
      S.Yields Z.rule σ' (Walk.body F Z.cast.thread c) fun o σ₁ => Q o σ₁.returned) :
    S.Yields Z.rule σ (Routine.invoke c) Q :=
  hg.call_within hZ hc hw fun σ₁ hg₁ _ => hb σ₁ hg₁

/-- A call that others hear of is one more occasion. -/
theorem Going.occasions_calling (hg : Z.Going pins h L σ) {c : Call κ} {x : Occasion κ}
    (hx : Z.cast.occasion? c = some x) :
    Z.cast.occasions (σ.calling c).calls = (L ++ [x]).filter Occasion.isCall := by
  have hcons : Z.cast.occasions (σ.calls ++ [c]) = Z.cast.occasions σ.calls ++ [x] := by
    simp [Cast.occasions, hx]
  have hcall : [x].filter Occasion.isCall = [x] := by
    simp [Cast.isCall_of_occasion? hx]
  rw [List.filter_append, hcall, ← hg.heard]
  exact hcons

/-- Others answer a call themselves. -/
theorem Going.left (hg : Z.Going pins h L σ) {c : Call κ} {x : Occasion κ}
    (hx : Z.cast.occasion? c = some x) (hbody : S.body c = none) (hrule : Z.rule c σ)
    (hscene : Z.Scene pins h (S.reply σ c).2) (hinv : Z.inv (S.reply σ c).2 (L ++ [x]))
    (hv : failure? (S.reply σ c).1 = Z.verdict (L ++ [x])) :
    S.Yields Z.rule σ (Routine.invoke c) fun r σ' =>
      Z.Going pins h (L ++ [x]) σ' ∧ failure? r = Z.verdict (L ++ [x]) :=
  .left hbody hrule ⟨⟨hscene, hinv, hg.occasions_calling hx, rfl⟩, hv⟩

/-- What a message comes to that is sent to an object that has a method for it and is given as many
arguments as it takes; the answer is on the way of it. -/
theorem Going.delivered_within (hg : Z.Going pins h L σ) (hZ : Z.Bears F S) {v : Value}
    {m : Message} {args : List Value} {Q : Outcome → Moment ε κ → Prop} (ha : m ≠ .accept)
    (hn : m.needsNoObject = false)
    (hm : ∀ w, Z.Scene pins h w → w.understands v m = true ∧ w.Unhidden v)
    (hp : ∀ w : World ε, w.argumentProblem? v m args.length = none)
    (hb : ∀ σ', Z.Going pins h L σ' → S.Includes (Walk.body F Z.cast.thread (.send v m args)) σ
        (Walk.answer F Z.cast.thread v m args) σ' →
      S.Yields Z.rule σ' (Walk.answer F Z.cast.thread v m args) Q) :
    S.Yields Z.rule σ (Walk.body F Z.cast.thread (.send v m args)) Q := by
  refine .bind_within (hg.look hZ (r := .ok (.bound m)) (fun w hw => ?_) fun σ₁ hg₁ hin₁ => ?_)
  · obtain ⟨hu, hopen⟩ := hm w hw
    rw [World.member_of_understands hu (hopen m ha), hn]
    rfl
  refine .bind_within (hg₁.read hZ fun w σ₂ _ hg₂ => ?_)
  dsimp only
  rw [hp w]
  exact fun hin₂ => hb σ₂ hg₂ (hin₁.trans hin₂)

/-- What a message comes to that is sent to an object that has a method for it and is given as many
arguments as it takes. -/
theorem Going.delivered (hg : Z.Going pins h L σ) (hZ : Z.Bears F S) {v : Value} {m : Message}
    {args : List Value} {Q : Outcome → Moment ε κ → Prop} (ha : m ≠ .accept)
    (hn : m.needsNoObject = false)
    (hm : ∀ w, Z.Scene pins h w → w.understands v m = true ∧ w.Unhidden v)
    (hp : ∀ w : World ε, w.argumentProblem? v m args.length = none)
    (hb : ∀ σ', Z.Going pins h L σ' →
      S.Yields Z.rule σ' (Walk.answer F Z.cast.thread v m args) Q) :
    S.Yields Z.rule σ (Walk.body F Z.cast.thread (.send v m args)) Q :=
  hg.delivered_within hZ ha hn hm hp fun σ₁ hg₁ _ => hb σ₁ hg₁

/-- Only a node that is asked for its traversal lets others act in between in another way. -/
theorem window_of_ne_accept {v : Value} {m : Message} (ha : m ≠ .accept) (args : List Value) :
    Window.ofCall (.send v m args : Call κ) = .open := by
  cases m <;> cases v <;> first | rfl | exact absurd rfl ha

/-- A message to an object that has a method for it and is given as many arguments as it takes; the
answer is on the way of it. -/
theorem Going.method_within (hg : Z.Going pins h L σ) (hZ : Z.Bears F S) {v : Value} {m : Message}
    {args : List Value} {Q : Outcome → Moment ε κ → Prop}
    (hc : Z.cast.isOwn (.send v m args : Call κ) = true) (ha : m ≠ .accept)
    (hn : m.needsNoObject = false)
    (hm : ∀ w, Z.Scene pins h w → w.understands v m = true ∧ w.Unhidden v)
    (hp : ∀ w : World ε, w.argumentProblem? v m args.length = none)
    (hb : ∀ σ', Z.Going pins h L σ' →
      S.Includes (Walk.send v m args) σ (Walk.answer F Z.cast.thread v m args) σ' →
      S.Yields Z.rule σ' (Walk.answer F Z.cast.thread v m args) fun o σ₁ => Q o σ₁.returned) :
    S.Yields Z.rule σ (Walk.send v m args) Q :=
  hg.call_within hZ hc (window_of_ne_accept ha args) fun _ hg₁ hin₁ =>
    hg₁.delivered_within hZ ha hn hm hp fun σ₂ hg₂ hin₂ => hb σ₂ hg₂ (hin₁.trans hin₂)

/-- A message to an object that has a method for it and is given as many arguments as it takes. -/
theorem Going.method (hg : Z.Going pins h L σ) (hZ : Z.Bears F S) {v : Value} {m : Message}
    {args : List Value} {Q : Outcome → Moment ε κ → Prop}
    (hc : Z.cast.isOwn (.send v m args : Call κ) = true) (ha : m ≠ .accept)
    (hn : m.needsNoObject = false)
    (hm : ∀ w, Z.Scene pins h w → w.understands v m = true ∧ w.Unhidden v)
    (hp : ∀ w : World ε, w.argumentProblem? v m args.length = none)
    (hb : ∀ σ', Z.Going pins h L σ' →
      S.Yields Z.rule σ' (Walk.answer F Z.cast.thread v m args) fun o σ₁ => Q o σ₁.returned) :
    S.Yields Z.rule σ (Walk.send v m args) Q :=
  hg.method_within hZ hc ha hn hm hp fun σ₁ hg₁ _ => hb σ₁ hg₁

/-! ## Parts of a walk -/

/-- How an occasion fails that comes after others, if it does. -/
def fails (Z : Setting ε κ) (L : List (Occasion κ)) (x : Occasion κ) : Option Failure :=
  if x.isCall then Z.verdict (L ++ [x]) else none

/-- What others hear of, up to the first failure, after other occasions. -/
def tell (Z : Setting ε κ) (L : List (Occasion κ)) :
    List (Occasion κ) → List (Occasion κ) × Option Failure
  | [] => (L, none)
  | x :: rest =>
    match Z.fails L x with
    | some f => (L ++ [x], some f)
    | none => tell Z (L ++ [x]) rest

theorem tell_append (Z : Setting ε κ) (L L₁ L₂ : List (Occasion κ)) :
    Z.tell L (L₁ ++ L₂) =
      match Z.tell L L₁ with
      | (L', none) => Z.tell L' L₂
      | (L', some f) => (L', some f) := by
  induction L₁ generalizing L with
  | nil => rfl
  | cons x rest ih =>
    simp only [List.cons_append, tell]
    cases Z.fails L x with
    | some f => rfl
    | none => exact ih (L ++ [x])

/-- What is told depends on nothing but how occasions fail. -/
theorem tell_congr {ε' : Type} {Z' : Setting ε' κ} (hv : Z'.verdict = Z.verdict)
    (L told : List (Occasion κ)) : Z'.tell L told = Z.tell L told := by
  induction told generalizing L with
  | nil => rfl
  | cons x rest ih => simp only [tell, fails, hv, ih]

/-- If no occasion fails, everything is told. -/
theorem tell_of_verdict (hv : ∀ L, Z.verdict L = none) (L told : List (Occasion κ)) :
    Z.tell L told = (L ++ told, none) := by
  induction told generalizing L with
  | nil => simp [tell]
  | cons x rest ih => simp [tell, fails, hv, ih]

/-- What others have heard of stays so. -/
theorem subset_tell (Z : Setting ε κ) (L told : List (Occasion κ)) : L ⊆ (Z.tell L told).1 := by
  induction told generalizing L with
  | nil => exact List.Subset.refl L
  | cons x rest ih =>
    rw [tell]
    cases Z.fails L x with
    | some f => exact List.subset_append_left L [x]
    | none => exact List.Subset.trans (List.subset_append_left L [x]) (ih _)

/-- A part of a walk ends in a certain way and nobody hears of it. -/
def Ends (Z : Setting ε κ) (S : Surroundings ε κ) (pins : List Pin) (h : Hold) (p : Steps ε κ α)
    (r : Except Failure α) : Prop :=
  ∀ L σ, Z.Going pins h L σ → S.Yields Z.rule σ p fun r' σ' => r' = r ∧ Z.Going pins h L σ'

/-- A part of a walk lets others hear of something, up to the first failure, and then something
holds. -/
def Tells (Z : Setting ε κ) (S : Surroundings ε κ) (σ : Moment ε κ) (L : List (Occasion κ))
    (p : Steps ε κ α) (told : List (Occasion κ)) (E : List (Occasion κ) → Moment ε κ → Prop) :
    Prop :=
  S.Yields Z.rule σ p fun r σ' => E (Z.tell L told).1 σ' ∧ failure? r = (Z.tell L told).2

/-- A part of a walk lets others hear of something, up to the first failure, whenever it comes. -/
def Delivers (Z : Setting ε κ) (S : Surroundings ε κ) (pins : List Pin) (h : Hold)
    (p : Steps ε κ α) (told : List (Occasion κ)) : Prop :=
  ∀ L σ, Z.Going pins h L σ → Z.Tells S σ L p told (Z.Going pins h)

variable {p : Steps ε κ α} {f : α → Steps ε κ β} {told told' : List (Occasion κ)}
  {E E' : List (Occasion κ) → Moment ε κ → Prop}

theorem Tells.nothing {a : α} (h : E L σ) : Z.Tells S σ L (Pure.pure a) [] E :=
  Surroundings.Yields.pure ⟨h, rfl⟩

/-- One part of a walk after another. -/
theorem Tells.andThen (hp : Z.Tells S σ L p told E)
    (hf : ∀ a L' σ', L ⊆ L' → E L' σ' → Z.Tells S σ' L' (f a) told' E')
    (hE : ∀ L' σ', E L' σ' → E' L' σ') : Z.Tells S σ L (p >>= f) (told ++ told') E' := by
  refine Surroundings.Yields.bind (Surroundings.Yields.mono hp ?_)
  rintro r σ₁ ⟨h₁, hr⟩
  have hsub := Z.subset_tell L told
  rw [tell_append]
  generalize Z.tell L told = first at h₁ hr hsub
  obtain ⟨L', o⟩ := first
  cases r with
  | ok a =>
    obtain rfl : o = none := hr.symm
    exact hf a L' σ₁ hsub h₁
  | error g =>
    obtain rfl : o = some g := hr.symm
    exact ⟨hE _ _ h₁, rfl⟩

theorem Tells.mono (hp : Z.Tells S σ L p told E) (hE : ∀ L' σ', E L' σ' → E' L' σ') :
    Z.Tells S σ L p told E' :=
  Surroundings.Yields.mono hp fun _ _ h => ⟨hE _ _ h.1, h.2⟩

theorem Delivers.pure (a : α) : Z.Delivers S pins h (Pure.pure a) [] := fun _ _ hg => .nothing hg

theorem Delivers.bind (hp : Z.Delivers S pins h p told)
    (hf : ∀ a, Z.Delivers S pins h (f a) told') :
    Z.Delivers S pins h (p >>= f) (told ++ told') := fun L σ hg =>
  (hp L σ hg).andThen (fun a L' σ' _ hg' => hf a L' σ' hg') fun _ _ hg' => hg'

end Setting

end GuardedWalk

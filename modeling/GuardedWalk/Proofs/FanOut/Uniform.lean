import GuardedWalk.Proofs.FanOut.Noting
import GuardedWalk.Proofs.Walk.Collecting

/-!
# Observers are told the same

A walker is made for the observers in a list. Some of them are notified and some are not, and an
observer may stand in the list more than once. When the walker goes through a document, and all
observers are passive, each entry of the log of the document is told to one observer after the
other, as they stand in the list, leaving out those that are not notified; and this is all that is
notified. What becomes of the list after the walker has been made does not matter.

## Main definitions

* `GuardedWalk.World.legacy` — the observers among some values that are notified.
* `GuardedWalk.Walk.newWalkerFor` — makes a walker for the observers in a list.
* `GuardedWalk.Outing` — a walk of a walker that was made for the observers in a list.

## Main results

* `GuardedWalk.Walk.newWalkerFor_yields` — making a walker for the observers in a list.
* `GuardedWalk.exists_outing` — there are such walks, among observers that keep notes.
* `GuardedWalk.fan_out_is_uniform` — what observers are told, and that it is all that is notified.
-/

set_option autoImplicit false

namespace GuardedWalk

variable {ε κ : Type}

/-- The observer that a value is, if it is one. -/
def Value.observer? : Value → Option (Ref .observer)
  | .observer o => some o
  | _ => Option.none

namespace World

variable {w w' : World ε} {vs : List Value} {o : Ref .observer} {l : Ref .list}

/-! ## Who is notified -/

/-- The observers among some values that are notified, in order and as often as they are among the
values. -/
def legacy (w : World ε) (vs : List Value) : List (Ref .observer) :=
  (w.notified vs).filterMap Value.observer?

theorem notified_eq (w : World ε) (vs : List Value) :
    w.notified vs = (w.legacy vs).map .observer := by
  have hall : ∀ us : List Value, (∀ v ∈ us, w.observerKind v = .legacy) →
      us = (us.filterMap Value.observer?).map .observer := by
    intro us hus
    induction us with
    | nil => rfl
    | cons v rest ih =>
      have hv := hus v List.mem_cons_self
      have hrest := ih fun u hu => hus u (List.mem_cons_of_mem _ hu)
      cases v
      case observer o =>
        rw [List.filterMap_cons_some (show Value.observer? (.observer o) = some o from rfl),
          List.map_cons, ← hrest]
      all_goals cases hv
  refine hall _ fun v hv => ?_
  simpa using (List.mem_filter.1 hv).2

theorem mem_legacy :
    o ∈ w.legacy vs ↔ .observer o ∈ vs ∧ (w.observers.get o).cls.kind = .legacy := by
  have hmem : o ∈ w.legacy vs ↔ .observer o ∈ w.notified vs := by
    rw [notified_eq]
    simp
  rw [hmem, notified, List.mem_filter, decide_eq_true_iff]
  rfl

/-- Who is notified does not depend on what is added, as long as the observers are there. -/
theorem Additions.notified (h : w.Additions w')
    (hknown : ∀ o, .observer o ∈ vs → o.index < w.observers.cells.size) :
    w'.notified vs = w.notified vs := by
  refine List.filter_congr fun v hv => ?_
  cases v
  case observer o =>
    have hsame : w'.observers.get o = w.observers.get o := h.observers.2 o (hknown o hv)
    exact decide_eq_decide.2 (by rw [observerKind, observerKind, hsame])
  all_goals rfl

/-! ## Lists that change -/

/-- A list is filled anew. -/
def refilled (w : World ε) (l : Ref .list) (vs : List Value) : World ε :=
  { w with lists := w.lists.set l vs.toArray }

theorem frame_refilled (V : Value → Prop) : Frame V w (w.refilled l vs) :=
  frame_contents V (.refl _ _)

theorem carried_refilled (v : Value) : (w.refilled l vs).carried v = w.carried v :=
  carried_jot w _ _ v

end World

/-- A document stands as it is written when a list is filled anew that is none of its own. -/
theorem Document.Fits.refilled {root : Document} {D : Ref .list → Prop} {w : World ε}
    (h : root.Fits D w) {l : Ref .list} (hl : ¬ D l) {vs : List Value} :
    root.Fits D (w.refilled l vs) := by
  refine h.frame (World.frame_refilled fun _ => True)
    (fun d _ name _ => by rw [World.carried_refilled]) (fun d _ name l' hl' _ => ?_)
    fun d _ hc => hc.of_carried (World.frame_refilled fun _ => True) (World.carried_refilled _)
  have hne : l' ≠ l := by
    rintro rfl
    exact hl hl'
  simp [World.items, World.refilled, Store.get_set, hne]

namespace Walk

open Surroundings

variable {F : Foreign ε κ} {t : Thread} {w : World ε} {l : Ref .list} {config timeout : Value}

/-- Makes a walker for the observers in a list. -/
def newWalkerFor (l : Ref .list) (config stepMother : Value) : Steps ε κ Value := do
  let observers ← Routine.examine (·.elementsOf (.list l))
  newWalker observers config stepMother

/-- **A walker is made for the observers in a list**; those that are notified are the ones that the
list holds then. -/
theorem newWalkerFor_yields (takes : w.Takes config timeout)
    (events : ∀ e : Event, (w.carried (.event e)).get? "_value_" = some (.text e.methodName))
    (known : ∀ o, .observer o ∈ w.items l → o.index < w.observers.cells.size)
    (stepMother : Value) :
    ∃ (X : Cast) (σ : Moment ε κ),
      (alone (body F t)).Runs (newWalkerFor l config stepMother) (.start w)
        (.ok (.walker X.walker)) σ ∧
      X.Assembled σ.world ∧ Held σ.world X .idle ∧ w.Additions σ.world ∧
      X.observers = w.legacy (w.items l) ∧ X.timeout = timeout ∧ X.thread = t := by
  have h : (alone (body F t)).Yields (.free ε κ) (.start w) (newWalkerFor l config stepMother)
      fun r σ => ∃ X : Cast, r = .ok (.walker X.walker) ∧ X.Assembled σ.world ∧
        Held σ.world X .idle ∧ w.Additions σ.world ∧ X.observers = w.legacy (w.items l) ∧
        X.timeout = timeout ∧ X.thread = t := by
    refine .bind (alone_look (r := .ok (w.items l)) rfl ?_)
    have hnotified : ∀ w', w.Additions w' →
        w'.notified (w.items l) = (w.legacy (w.items l)).map .observer := by
      intro w' ha
      rw [ha.notified known, World.notified_eq]
    exact newWalker_yields_of_notified rfl takes hnotified events stepMother
      fun X _ σ hos ht hthread hX hidle ha _ _ => ⟨X, rfl, hX, hidle, ha, hos, ht, hthread⟩
  obtain ⟨_, σ, hruns, -, X, rfl, hX⟩ := h
  exact ⟨X, σ, hruns, hX⟩

end Walk

/-! ## Who takes part -/

namespace Cast

variable {X X' : Cast} {w w' : World ε} {h : Hold}

/-- A walker tells who takes part in its walks. -/
theorem Assembled.unique (hX : X.Assembled w) (hX' : X'.Assembled w)
    (hwalker : X.walker = X'.walker) : X.token = X'.token ∧ X.observers = X'.observers := by
  have htoken := hX.ownership
  have hadapter := hX.broadcast
  rw [hwalker] at htoken hadapter
  have hadapter' : X.adapter = X'.adapter :=
    Value.adapter.inj (Option.some.inj (hadapter.symm.trans hX'.broadcast))
  have hnotified := hX.adapterNotified
  rw [hadapter'] at hnotified
  have hrow := hX.notified
  rw [Value.tuple.inj (Option.some.inj (hnotified.symm.trans hX'.adapterNotified)),
    hX'.notified] at hrow
  refine ⟨Value.token.inj (Option.some.inj (htoken.symm.trans hX'.ownership)), ?_⟩
  exact (List.map_inj_right fun _ _ => Value.observer.inj).1 hrow.symm

/-- A token tells how long others may wait for it. -/
theorem timeout_of_held (hh : Held w X h) :
    X.timeout = w.ownValue (.token X.token) Token.timeoutField := by
  obtain ⟨x, hx, htimeout, -⟩ := hh.shows
  exact htimeout.symm.trans hx.timeout.symm

/-- A walker is ready for a walk, whatever has become of a list meanwhile and whatever else has
happened that leaves alone what the walk relies on. -/
theorem ready_after {D : Ref .list → Prop} {l : Ref .list} {vs : List Value} (hX : X.Assembled w)
    (hidle : Held w X .idle) (hpeace : World.Peaceful X D (w.refilled l vs) w') :
    X.Assembled w' ∧ Held w' X .idle := by
  have hX₁ : X.Assembled (w.refilled l vs) :=
    hX.frame (World.frame_refilled fun _ => True) fun _ _ => trivial
  have hidle₁ : Held (w.refilled l vs) X .idle :=
    hidle.frame (World.frame_refilled fun _ => True) fun name _ => by rw [World.carried_refilled]
  exact ⟨hX₁.frame hpeace.toFrame fun _ hv => .inl hv,
    hidle₁.frame hpeace.toFrame (hpeace.carried _ (.inr rfl))⟩

end Cast

/-! ## Walks among observers of all kinds -/

open Surroundings
open World (Peaceful)

/-- A walk of a walker that was made for the observers in a list, with all calls that are made in
it. After the walker has been made, the list may be filled anew, and other things may happen that
leave alone what the walk relies on. All observers are passive. -/
inductive Outing (F : Foreign ε κ) (t : Thread) (w : World ε) (l : Ref .list) (config : Value)
    (root : Document) (e : Event) : Outcome → List (Call κ) → Prop
  | intro {stepMother : Value} {X : Cast} {σ σ' : Moment ε κ} {vs : List Value} {w' : World ε}
    {D : Ref .list → Prop} {mind : World ε → Prop} {S : Surroundings ε κ} {r : Outcome}
    (made : (alone (Walk.body F t)).Runs (Walk.newWalkerFor l config stepMother) (.start w)
      (.ok (.walker X.walker)) σ)
    (assembled : X.Assembled σ.world) (idle : Held σ.world X .idle)
    (meanwhile : Peaceful X D (σ.world.refilled l vs) w') (fits : root.Fits D w')
    (passive : X.Passive F D mind S) (minded : mind w')
    (walked : S.Runs (Walk.send (.walker X.walker) (.entry e) [root.value]) (.start w') r σ') :
    Outing F t w l config root e r σ'.calls

variable {F : Foreign ε κ} {t : Thread} {w : World ε} {l l' : Ref .list}
  {config timeout : Value} {root : Document} {e : Event} {r r' : Outcome}
  {calls calls' : List (Call κ)}

/-- Who is notified in such a walk, and of what. -/
theorem Outing.notified (h : Outing F t w l config root e r calls) (he : e.entersNode = true)
    (takes : w.Takes config timeout)
    (events : ∀ e : Event, (w.carried (.event e)).get? "_value_" = some (.text e.methodName))
    (known : ∀ o, .observer o ∈ w.items l → o.index < w.observers.cells.size) :
    failure? r = (if timeout.outlastsTime then some .numberTooLarge else none) ∧
      calls.filter (·.notified?.isSome) =
        fanOut (w.legacy (w.items l)) (root.log e timeout) := by
  obtain ⟨made, assembled, idle, meanwhile, fits, passive, minded, walked⟩ := h
  rename_i stepMother X σ σ' vs w' D mind S
  obtain ⟨X₀, σ₀, hmade, hX₀, hidle₀, -, hos, ht, -⟩ :=
    Walk.newWalkerFor_yields (F := F) (t := t) takes events known stepMother
  obtain ⟨hwalker, rfl⟩ := made.unique hmade
  obtain ⟨htoken, hobservers⟩ :=
    assembled.unique hX₀ (Value.walker.inj (Except.ok.inj hwalker))
  have htimeout : X.timeout = timeout := by
    rw [Cast.timeout_of_held idle, htoken, ← Cast.timeout_of_held hidle₀, ht]
  obtain ⟨hX, hidle⟩ := Cast.ready_after assembled idle meanwhile
  obtain ⟨r₁, σ₁, hruns, hr, hcalls⟩ := passive.walk hX hidle fits he minded
  obtain ⟨rfl, rfl⟩ := walked.unique hruns
  rw [htimeout] at hr hcalls
  rw [hobservers, hos] at hcalls
  exact ⟨hr, hcalls⟩

/-- There are such walks on a thread that is alone, if the observers that are notified keep notes:
the list may be filled anew with anything. -/
theorem exists_outing {D : Ref .list → Prop} (he : e.entersNode = true)
    (takes : w.Takes config timeout)
    (events : ∀ e : Event, (w.carried (.event e)).get? "_value_" = some (.text e.methodName))
    (known : ∀ o, .observer o ∈ w.items l → o.index < w.observers.cells.size)
    (fits : root.Fits D w) (stored : ∀ l, D l → l.index < w.lists.cells.size) (apart : ¬ D l)
    (equipped : ∀ o ∈ w.legacy (w.items l), w.Equipped D o)
    (hF : ∀ X : Cast, F.Unobtrusive t D fun c _ => X.Notifies c) (stepMother : Value)
    (vs : List Value) : ∃ r calls, Outing F t w l config root e r calls := by
  obtain ⟨X, σ, hmade, hX, hidle, hadditions, hos, -, rfl⟩ :=
    Walk.newWalkerFor_yields (F := F) (t := t) takes events known stepMother
  have hmind : ∀ o ∈ X.observers, (σ.world.refilled l vs).Equipped D o := by
    intro o ho
    rw [hos] at ho
    exact (equipped o ho).of_get (hadditions.observers.2 o (known o (World.mem_legacy.1 ho).1))
  have hfits : root.Fits D (σ.world.refilled l vs) := (hadditions.fits fits stored).refilled apart
  have hpassive := Cast.passive_of_equipped (hF X)
  obtain ⟨hX', hidle'⟩ := Cast.ready_after hX hidle (.refl X D (σ.world.refilled l vs))
  obtain ⟨r, σ', hwalked, -⟩ := hpassive.walk hX' hidle' hfits he hmind
  exact ⟨r, σ'.calls, .intro hmade hX hidle (.refl ..) hfits hpassive hmind hwalked⟩

/-- What is notified tells what each observer is notified of. -/
theorem filter_notified_eq {os : List (Ref .observer)} {log : List Notice}
    (h : calls.filter (·.notified?.isSome) = fanOut os log) (o : Ref .observer) :
    calls.filter (·.notified? = some o) =
      log.flatMap fun n => List.replicate (os.count o) (n.told.call o) := by
  rw [← filter_fanOut, ← h, List.filter_filter]
  refine List.filter_congr fun c _ => ?_
  cases hc : c.notified? <;> simp

/-- **Observers are told the same.** A walker can be made for the observers in a list, and among
passive observers its walks come to an end. Each entry of the log of the document is told to one
observer after the other, as they stood in the list when the walker was made, leaving out those that
are not notified; this is all that is notified. So an observer is told each entry as often as it
stands in the list, and one of another kind is told nothing. The same is notified if the walker is
made for a list that differs in nothing but those that are not notified. -/
theorem fan_out_is_uniform (he : e.entersNode = true) (takes : w.Takes config timeout)
    (events : ∀ e : Event, (w.carried (.event e)).get? "_value_" = some (.text e.methodName))
    (known : ∀ o, .observer o ∈ w.items l → o.index < w.observers.cells.size) :
    (∀ stepMother, ∃ (X : Cast) (σ : Moment ε κ),
      (alone (Walk.body F t)).Runs (Walk.newWalkerFor l config stepMother) (.start w)
        (.ok (.walker X.walker)) σ ∧
      X.Assembled σ.world ∧ Held σ.world X .idle ∧ w.Additions σ.world ∧
      X.observers = w.legacy (w.items l) ∧ X.thread = t ∧
      ∀ (root : Document) vs w' D mind S, Peaceful X D (σ.world.refilled l vs) w' →
        root.Fits D w' → X.Passive F D mind S → mind w' → ∃ (r : Outcome) (σ' : Moment ε κ),
          S.Runs (Walk.send (.walker X.walker) (.entry e) [root.value]) (.start w') r σ') ∧
    (∀ (root : Document) r (calls : List (Call κ)), Outing F t w l config root e r calls →
      failure? r = (if timeout.outlastsTime then some .numberTooLarge else none) ∧
      calls.filter (·.notified?.isSome) = fanOut (w.legacy (w.items l)) (root.log e timeout) ∧
      (∀ o, calls.filter (·.notified? = some o) = (root.log e timeout).flatMap fun n =>
        List.replicate ((w.legacy (w.items l)).count o) (n.told.call o)) ∧
      ∀ o, (w.observers.get o).cls.kind ≠ .legacy → ∀ c ∈ calls, c.notified? ≠ some o) ∧
    ∀ l' root r r' (calls calls' : List (Call κ)),
      (∀ o, .observer o ∈ w.items l' → o.index < w.observers.cells.size) →
      w.notified (w.items l') = w.notified (w.items l) →
      Outing F t w l config root e r calls → Outing F t w l' config root e r' calls' →
      calls'.filter (·.notified?.isSome) = calls.filter (·.notified?.isSome) ∧
        failure? r' = failure? r := by
  refine ⟨fun stepMother => ?walks, fun root r calls h => ?told,
    fun l' root r r' calls calls' known' hsame h h' => ?alike⟩
  case walks =>
    obtain ⟨X, σ, hmade, hX, hidle, hadditions, hos, -, hthread⟩ :=
      Walk.newWalkerFor_yields (F := F) (t := t) takes events known stepMother
    refine ⟨X, σ, hmade, hX, hidle, hadditions, hos, hthread,
      fun root vs w' D mind S hpeace hfits hpassive hmind => ?_⟩
    obtain ⟨hX', hidle'⟩ := Cast.ready_after hX hidle hpeace
    obtain ⟨r, σ', hruns, -⟩ := hpassive.walk hX' hidle' hfits he hmind
    exact ⟨r, σ', hruns⟩
  case told =>
    obtain ⟨hr, hcalls⟩ := h.notified he takes events known
    refine ⟨hr, hcalls, filter_notified_eq hcalls, fun o ho c hc hnotified => ?_⟩
    have hnone : (w.legacy (w.items l)).count o = 0 :=
      List.count_eq_zero.2 fun hmem => ho (World.mem_legacy.1 hmem).2
    have hfilter := filter_notified_eq hcalls o
    rw [hnone] at hfilter
    have hmem : c ∈ calls.filter (·.notified? = some o) :=
      List.mem_filter.2 ⟨hc, by simp [hnotified]⟩
    rw [hfilter] at hmem
    simp at hmem
  case alike =>
    obtain ⟨hr, hcalls⟩ := h.notified he takes events known
    obtain ⟨hr', hcalls'⟩ := h'.notified he takes events known'
    have hlegacy : w.legacy (w.items l') = w.legacy (w.items l) :=
      congrArg (List.filterMap Value.observer?) hsame
    exact ⟨by rw [hcalls, hcalls', hlegacy], hr'.trans hr.symm⟩

/-! ## A small document -/

namespace Ensemble

/-- The small document with observers of all kinds: two that record, one of which has declared the
newer protocol as well, one that was declared to be notified by someone else, and three that are not
notified. Two lists hold observers. -/
def world : World Unit :=
  { Document.loginWorld with
    lists := ⟨Document.loginWorld.lists.cells ++ Array.replicate 7 #[] ++
      #[#[.observer ⟨3⟩, .observer ⟨0⟩, .observer ⟨4⟩, .observer ⟨1⟩, .none, .observer ⟨2⟩,
          .observer ⟨5⟩, .observer ⟨0⟩],
        #[.observer ⟨0⟩, .observer ⟨1⟩, .observer ⟨2⟩, .observer ⟨0⟩]]⟩
    locks := ⟨#[(), ()]⟩
    observers := ⟨#[
      ⟨.recording, 0, [(Observer.notesField, .list ⟨4⟩), (Observer.openField, .list ⟨5⟩),
        (Observer.lockField, .lock ⟨0⟩)]⟩,
      ⟨.both, 0, [(Observer.notesField, .list ⟨6⟩), (Observer.openField, .list ⟨7⟩),
        (Observer.lockField, .lock ⟨1⟩)]⟩,
      ⟨.virtual, 0, [(Observer.callsField, .list ⟨8⟩)]⟩,
      ⟨.duck, 0, [(Observer.callsField, .list ⟨9⟩)]⟩,
      ⟨.recordingEvent, 0, [(Observer.callsField, .list ⟨10⟩)]⟩,
      ⟨.plain, 0, []⟩]⟩ }

/-- Foreign code that does nothing. -/
def code : Foreign Unit Empty := .silent .numberTooLarge

/-- The list of all observers, one of them twice, with something that is no observer. -/
def mixed : Ref .list := ⟨11⟩

/-- The list of those that are notified. -/
def plain : Ref .list := ⟨12⟩

theorem fits : Document.login.Fits (4 : Nat) world := by
  have h : Document.login.Pristine (4 : Nat) world := by
    constructor <;> decide
  exact h.fits

theorem known {l : Ref .list} (hl : l = mixed ∨ l = plain) :
    ∀ o, .observer o ∈ world.items l → o.index < world.observers.cells.size := by
  have hall : ∀ o ∈ (world.items l).filterMap Value.observer?,
      o.index < world.observers.cells.size := by
    rcases hl with rfl | rfl <;> decide
  exact fun o ho => hall o (List.mem_filterMap.2 ⟨_, ho, rfl⟩)

theorem legacy_eq {l : Ref .list} (hl : l = mixed ∨ l = plain) :
    world.legacy (world.items l) = [⟨0⟩, ⟨1⟩, ⟨2⟩, ⟨0⟩] := by
  rcases hl with rfl | rfl <;> decide

theorem equipped {o : Ref .observer} (ho : o ∈ [(⟨0⟩ : Ref .observer), ⟨1⟩, ⟨2⟩, ⟨0⟩]) :
    world.Equipped (4 : Nat) o := by
  have h0 : world.Equipped (4 : Nat) ⟨0⟩ :=
    ⟨rfl, World.unhidden_of_names (by decide),
      List.forall_mem_cons.2 ⟨⟨⟨5⟩, rfl, by decide⟩,
        List.forall_mem_singleton.2 ⟨⟨4⟩, rfl, by decide⟩⟩, fun _ => ⟨⟨0⟩, rfl⟩⟩
  have h1 : world.Equipped (4 : Nat) ⟨1⟩ :=
    ⟨rfl, World.unhidden_of_names (by decide),
      List.forall_mem_cons.2 ⟨⟨⟨7⟩, rfl, by decide⟩,
        List.forall_mem_singleton.2 ⟨⟨6⟩, rfl, by decide⟩⟩, fun _ => ⟨⟨1⟩, rfl⟩⟩
  have h2 : world.Equipped (4 : Nat) ⟨2⟩ :=
    ⟨rfl, World.unhidden_of_names (by decide),
      List.forall_mem_singleton.2 ⟨⟨8⟩, rfl, by decide⟩, fun h => absurd h (by decide)⟩
  simp only [List.mem_cons, List.not_mem_nil, or_false] at ho
  rcases ho with rfl | rfl | rfl | rfl
  · exact h0
  · exact h1
  · exact h2
  · exact h0

/-- There are walks of walkers that are made for either list, although the list is emptied then. -/
theorem exists_emptied {l : Ref .list} (hl : l = mixed ∨ l = plain) :
    ∃ r calls, Outing code default world l .none Document.login .features r calls := by
  refine exists_outing (D := (4 : Nat)) rfl .default (fun _ => rfl) (known hl) fits
    (fun l hl => Nat.lt_trans hl (by decide)) ?_ (fun o ho => equipped (legacy_eq hl ▸ ho))
    (fun _ => Foreign.unobtrusive_silent ..) .none []
  rcases hl with rfl | rfl <;> decide

end Ensemble

open Ensemble in
/-- Two recorders and an observer of a class that was declared to be notified are among others in a
list, the first recorder twice. The list is emptied before the walk through the small document. The
recorders and the third observer are notified as if they stood in the list alone. -/
theorem ensemble_is_told_the_same :
    ∃ (r r' : Outcome) (calls calls' : List (Call Empty)),
      Outing code default world mixed .none Document.login .features r calls ∧
      Outing code default world plain .none Document.login .features r' calls' ∧
      failure? r = none ∧
      calls.filter (·.notified?.isSome) = fanOut [⟨0⟩, ⟨1⟩, ⟨2⟩, ⟨0⟩]
        (around .features [Document.login.value] Document.login.inside) ∧
      (∀ c ∈ calls, c.notified? ≠ some ⟨4⟩) ∧
      calls'.filter (·.notified?.isSome) = calls.filter (·.notified?.isSome) := by
  obtain ⟨-, told, alike⟩ := fan_out_is_uniform (F := code) (t := default) (w := world) (l := mixed)
    (e := .features) rfl .default (fun _ => rfl) (known (.inl rfl))
  obtain ⟨r, calls, h⟩ := exists_emptied (.inl rfl)
  obtain ⟨r', calls', h'⟩ := exists_emptied (.inr rfl)
  have hsame : world.notified (world.items plain) = world.notified (world.items mixed) := by
    rw [World.notified_eq, World.notified_eq, legacy_eq (.inr rfl), legacy_eq (.inl rfl)]
  obtain ⟨hr, hcalls, -, hothers⟩ := told _ r calls h
  rw [legacy_eq (.inl rfl)] at hcalls
  exact ⟨r, r', calls, calls', h, h', hr, hcalls, hothers ⟨4⟩ (by decide),
    (alike plain _ r r' calls calls' (known (.inr rfl)) hsame h h').1⟩

end GuardedWalk

import GuardedWalk.Proofs.Walk.Making
import GuardedWalk.Proofs.Walk.Meddling
import GuardedWalk.Proofs.Walk.Recital

/-!
# Walks that others attend to

Observers, foreign code and other threads may do much while a walk goes on without disturbing it, as
long as they leave nodes alone, and whatever the walk relies on. Among such others a walk through
any agenda tells what is on it, up to the first failure.

## Main definitions

* `GuardedWalk.World.Peaceful` — what others do that leave nodes alone, and what a walk relies on.
* `GuardedWalk.Cast.Attended` — surroundings in which others act so and answer what they are asked.
* `GuardedWalk.Cast.SetsOut` — a walker can set out on a walk through an agenda.
* `GuardedWalk.Cast.course` — what others hear of in such a walk, and how it ends.
* `GuardedWalk.Cast.quietly` — surroundings in which others do nothing.

## Main results

* `GuardedWalk.Cast.Attended.hosts` — a walk can go on in such surroundings.
* `GuardedWalk.Cast.SetsOut.of_document` — a walker can set out on a walk through a document.
* `GuardedWalk.Cast.SetsOut.walk` — a walk comes to an end and takes its course.
-/

set_option autoImplicit false

namespace GuardedWalk

variable {ε κ : Type}

namespace World

variable {w w' : World ε} {X : Cast} {D : Ref .list → Prop}

/-- What others do that leave nodes alone, and whatever a walk relies on; they open no sessions. -/
structure Peaceful (X : Cast) (D : Ref .list → Prop) (w w' : World ε) : Prop
    extends Frame X.Intact w w' where
  sameNodes : w'.nodes = w.nodes
  sameSessions : w'.sessions = w.sessions
  lists : ∀ l : Ref .list, D l → w'.items l = w.items l

theorem Peaceful.refl (X : Cast) (D : Ref .list → Prop) (w : World ε) : Peaceful X D w w :=
  ⟨.refl _ w, rfl, rfl, fun _ _ => rfl⟩

theorem Peaceful.trans {w₁ : World ε} (h : Peaceful X D w w₁) (h' : Peaceful X D w₁ w') :
    Peaceful X D w w' where
  toFrame := h.toFrame.trans h'.toFrame
  sameNodes := h'.sameNodes.trans h.sameNodes
  sameSessions := h'.sameSessions.trans h.sameSessions
  lists l hl := (h'.lists l hl).trans (h.lists l hl)

theorem Peaceful.marked (h : Peaceful X D w w') {n : Ref .node} {own : Option (Ref .node)}
    (hm : w.Marked n own) : w'.Marked n own := hm.frame h.toFrame (carried_of_nodes h.sameNodes n)

/-- They leave the scene of a walk as it is. -/
theorem Peaceful.scene (h : Peaceful X D w w') {strict : Bool} {A : Agenda κ}
    {pins : List Pin} {hold : Hold} (hs : Scene X strict D A pins hold w) :
    Scene X strict D A pins hold w' where
  assembled := hs.assembled.frame h.toFrame fun _ hv => .inl hv
  held := hs.held.frame h.toFrame (h.carried _ (.inr rfl))
  pinned p hp := (hs.pinned p hp).frame h.toFrame
  fits := hs.fits.frame h.toFrame (fun n _ _ => by rw [carried_of_nodes h.sameNodes n]) h.lists
    fun _ _ => h.marked

end World

open World (Peaceful)

namespace Cast

variable {X : Cast} {F : Foreign ε κ} {D : Ref .list → Prop} {A : Agenda κ} {e : Event}
  {args : List Value} {w : World ε} {S : Surroundings ε κ}
  {verdict : List (Occasion κ) → Option Failure}

/-- Surroundings in which others act between the steps of a walk, are told what observers are told
and answer what they are asked, and leave nodes alone meanwhile. How they end may depend on all that
they have heard of. Every other call of the walk runs as it should. -/
structure Attended (X : Cast) (F : Foreign ε κ) (D : Ref .list → Prop)
    (verdict : List (Occasion κ) → Option Failure) (S : Surroundings ε κ) : Prop where
  body : ∀ c, S.body c =
    if (X.occasion? c).isSome then none else some (Walk.body F X.thread c)
  move : ∀ σ, Peaceful X D σ.world (S.move σ)
  reply : ∀ σ c, Peaceful X D σ.world (S.reply σ c).2
  verdict : ∀ σ c x, X.occasion? c = some x →
    failure? (S.reply σ c).1 = verdict (X.occasions σ.calls ++ [x])

/-- The setting of a walk through an agenda in such surroundings. -/
def attended (X : Cast) (D : Ref .list → Prop) (A : Agenda κ)
    (inv : World ε → List (Occasion κ) → Prop) (verdict : List (Occasion κ) → Option Failure) : Setting ε κ where
  cast := X
  strict := false
  lists := D
  root := A
  inv
  verdict L := verdict (L.filter Occasion.isCall)
  rule := .free ε κ

/-- Such surroundings let a walk be, along with whatever else others do not disturb. -/
theorem Attended.bears (hS : X.Attended F D verdict S)
    {inv : World ε → List (Occasion κ) → Prop}
    (hpeace : ∀ w w' L, Peaceful X D w w' → inv w L → inv w' L) :
    (X.attended D A inv verdict).Bears F S where
  body c hc := by
    rw [hS.body c, occasion?_of_isOwn (X := X) hc]
    rfl
  own _ _ _ := trivial
  move _ _ σ L hw hi := ⟨(hS.move σ).scene hw, hpeace _ _ L (hS.move σ) hi⟩

/-- Others are told or asked something in the middle of a walk, and what else holds throughout still
does when they have answered. -/
theorem Attended.answered (hS : X.Attended F D verdict S)
    {inv : World ε → List (Occasion κ) → Prop} {pins : List Pin} {h : Hold}
    {L : List (Occasion κ)} {σ : Moment ε κ}
    (hg : (X.attended D A inv verdict).Going pins h L σ) {c : Call κ} {x : Occasion κ}
    (hx : X.occasion? c = some x) (hi : inv (S.reply σ c).2 (L ++ [x])) :
    S.Yields (.free ε κ) σ (Routine.invoke c) fun r σ' =>
      (X.attended D A inv verdict).Going pins h (L ++ [x]) σ' ∧
        failure? r = verdict ((L ++ [x]).filter Occasion.isCall) := by
  have hbody : S.body c = none := by
    rw [hS.body, hx]
    rfl
  refine hg.left hx hbody trivial ((hS.reply σ c).scene hg.scene) hi ?_
  rw [hS.verdict σ c x hx, show X.occasions σ.calls = _ from hg.heard]
  show _ = verdict ((L ++ [x]).filter Occasion.isCall)
  have hone : [x].filter Occasion.isCall = [x] := by simp [isCall_of_occasion? hx]
  rw [List.filter_append, hone]

/-- Others are told or asked something in the middle of a walk, along with whatever else they do not
disturb. -/
theorem Attended.left (hS : X.Attended F D verdict S)
    {inv : World ε → List (Occasion κ) → Prop}
    (hpeace : ∀ w w' L, Peaceful X D w w' → inv w L → inv w' L)
    (hcall : ∀ w L x, x.isCall = true → inv w L → inv w (L ++ [x])) {pins : List Pin} {h : Hold}
    {L : List (Occasion κ)} {σ : Moment ε κ}
    (hg : (X.attended D A inv verdict).Going pins h L σ) {c : Call κ} {x : Occasion κ}
    (hx : X.occasion? c = some x) :
    S.Yields (.free ε κ) σ (Routine.invoke c) fun r σ' =>
      (X.attended D A inv verdict).Going pins h (L ++ [x]) σ' ∧
        failure? r = verdict ((L ++ [x]).filter Occasion.isCall) :=
  hS.answered hg hx
    (hcall _ _ _ (isCall_of_occasion? hx) (hpeace _ _ _ (hS.reply σ c) hg.inv))

/-- **A walk can go on in such surroundings**, with whatever else is not disturbed by others, nor by
the walk itself. -/
theorem Attended.hosts (hS : X.Attended F D verdict S)
    (hcoded : A.Coded F X.thread (.walker X.walker))
    {inv : World ε → List (Occasion κ) → Prop}
    (hpeace : ∀ w w' L, Peaceful X D w w' → inv w L → inv w' L)
    (hcall : ∀ w L x, x.isCall = true → inv w L → inv w (L ++ [x]))
    (honward : ∀ w w' L, w.Onward X.token w' → inv w L → inv w' L)
    (hguard : ∀ pins s n w L v, Scene X false D A pins (.owned s n) w → w.Open v → inv w L →
      inv (World.install F.obstruct w X.guard v).2 (L ++ [.guarded v])) :
    (X.attended D A inv verdict).Hosts F S where
  toBears := hS.bears hpeace
  coded := hcoded
  onward := honward
  guards pins s n w L v hw hv hi := hguard pins s n w L v hw hv.1 hi
  hears _ _ _ _ _ _ n ho _ hg := hS.left hpeace hcall hg (occasion?_call ho n)
  answers _ _ _ _ _ _ hg := hS.left hpeace hcall hg rfl

/-! ## Walks from their beginning -/

/-- The beginning of a walk. -/
theorem going_start {Z : Setting ε κ} (hw : Z.Scene [] .idle w) (hi : Z.inv w []) :
    Z.Going [] .idle [] (.start w) :=
  ⟨hw, hi, rfl, rfl⟩

/-- A walker can set out on a walk through an agenda that one of its entry methods announces. -/
structure SetsOut (X : Cast) (F : Foreign ε κ) (D : Ref .list → Prop) (e : Event)
    (args : List Value) (A : Agenda κ) (w : World ε) : Prop where
  assembled : X.Assembled w
  idle : Held w X .idle
  announces : e ≠ .announce
  whole : ∃ source inner, A = .entry e args source inner .done
  fits : A.Fits false D w
  coded : A.Coded F X.thread (.walker X.walker)

theorem SetsOut.going (h : X.SetsOut F D e args A w)
    {inv : World ε → List (Occasion κ) → Prop} (hi : inv w []) :
    (X.attended D A inv verdict).Going [] .idle [] (.start w) :=
  going_start ⟨h.assembled, h.idle, by simp, h.fits⟩ hi

/-- A walker can set out on a walk through a document. -/
theorem SetsOut.of_document {root : Document} (hroot : root.Fits D w) (hX : X.Assembled w)
    (hi : Held w X .idle) (he : e.entersNode = true) :
    X.SetsOut F D e [root.value] (root.entered e : Agenda κ) w where
  assembled := hX
  idle := hi
  announces := Event.ne_announce_of_entersNode he
  whole := ⟨_, _, rfl⟩
  fits := hroot.entered he
  coded := (root.isWritten_entered e).coded F X.thread _

/-- What others hear of in a walk through an agenda, up to the first failure, and how the walk fails
if it does. -/
def course (X : Cast) (A : Agenda κ) (verdict : List (Occasion κ) → Option Failure) :
    List (Occasion κ) × Option Failure :=
  let Z : Setting Unit κ := X.attended (fun _ => True) A (fun _ _ => True) verdict
  ((Z.outcome []).1.filter Occasion.isCall, (Z.outcome []).2)

theorem course_eq (D : Ref .list → Prop) (inv : World ε → List (Occasion κ) → Prop) :
    X.course A verdict = (((X.attended D A inv verdict).outcome []).1.filter Occasion.isCall,
      ((X.attended D A inv verdict).outcome []).2) := by
  have htell : ∀ L told,
      (X.attended (fun _ => True) A (fun (_ : World Unit) _ => True) verdict).tell L told =
      (X.attended D A inv verdict).tell L told :=
    Setting.tell_congr (Z := X.attended D A inv verdict) rfl
  simp only [course, Setting.outcome, htell]
  rfl

/-- The course of a walk that can begin. -/
theorem course_of_begins (hbegins : X.timeout.outlastsTime = false) (D : Ref .list → Prop)
    (inv : World ε → List (Occasion κ) → Prop) :
    X.course A verdict =
      (((X.attended D A inv verdict).tell [] (A.occasions X)).1.filter Occasion.isCall,
        ((X.attended D A inv verdict).tell [] (A.occasions X)).2) := by
  have hfreely : (X.attended D A inv verdict).cast.timeout.outlastsTime = false := hbegins
  rw [course_eq D inv, Setting.outcome, if_neg (by simp [hfreely])]
  rfl

/-- If nothing fails, others hear of all that is on the agenda, unless the walk cannot begin. -/
theorem course_quiet (X : Cast) (A : Agenda κ) :
    X.course A (fun _ => none) = if X.timeout.outlastsTime then ([], some .numberTooLarge)
      else ((A.occasions X).filter Occasion.isCall, none) := by
  simp only [course, Setting.outcome, Setting.tell_of_verdict, attended, implies_true]
  split <;> simp

/-- **What others hear of in a walk that they attend to**, and how the walk ends, depends on nothing
but the agenda and what they answer. -/
theorem SetsOut.walk (h : X.SetsOut F D e args A w) (hS : X.Attended F D verdict S) :
    ∃ (r : Outcome) (σ : Moment ε κ),
      S.Runs (Walk.send (.walker X.walker) (.entry e) args) (.start w) r σ ∧
      X.occasions σ.calls = (X.course A verdict).1 ∧ failure? r = (X.course A verdict).2 := by
  have hZ : (X.attended D A (fun _ _ => True) verdict).Hosts F S :=
    hS.hosts h.coded (fun _ _ _ _ _ => trivial) (fun _ _ _ _ _ => trivial)
      (fun _ _ _ _ _ => trivial) fun _ _ _ _ _ _ _ _ _ => trivial
  obtain ⟨source, inner, hwhole⟩ := h.whole
  obtain ⟨r, σ, hruns, -, hg, hr⟩ := hZ.walk (fun _ _ _ _ _ => trivial) h.announces hwhole
    (h.going trivial)
  refine ⟨r, σ, hruns, ?_, ?_⟩ <;> rw [course_eq D fun (_ : World ε) _ => True]
  · exact hg.heard
  · exact hr

/-! ## Others who do nothing -/

/-- Surroundings in which others do nothing but listen, and answer what they are asked. -/
def quietly (X : Cast) (F : Foreign ε κ) (verdict : List (Occasion κ) → Option Failure) :
    Surroundings ε κ where
  body c := if (X.occasion? c).isSome then none else some (Walk.body F X.thread c)
  move σ := σ.world
  reply σ c := (((X.occasion? c).bind fun x => verdict (X.occasions σ.calls ++ [x])).elim
    (.ok .none) .error, σ.world)

theorem attended_quietly (X : Cast) (F : Foreign ε κ) (D : Ref .list → Prop)
    (verdict : List (Occasion κ) → Option Failure) :
    X.Attended F D verdict (X.quietly F verdict) where
  body _ := rfl
  move σ := .refl X D σ.world
  reply σ _ := .refl X D σ.world
  verdict σ c x hx := by
    simp only [quietly, hx, Option.bind_some]
    cases verdict (X.occasions σ.calls ++ [x]) <;> rfl

end Cast

/-! ## A node with a traversal of its own -/

namespace Bearer

open Cast

/-- A node of a class without a traversal. It has one of its own. -/
def node : Node :=
  ⟨.foreign ⟨0, "Stub", .absent, true, none, false⟩, [(Node.acceptField, .ownAccept ⟨0⟩)]⟩

/-- The traversal of the node asks others something, and does nothing else. -/
def code : Foreign Unit Unit :=
  { Foreign.silent .numberTooLarge with
    accept := fun _ _ _ visitor => (Agenda.ask () .done).perform visitor }

/-- A world with the node, an observer, a guard, and an exception for others to raise. -/
def furnished : World Unit :=
  { World.empty () with
    nodes := ⟨#[node]⟩
    observers := ⟨#[⟨.recording, 0, []⟩]⟩
    guards := ⟨#[.new .none .none .none (.bool true)]⟩
    tuples := ⟨#[#[]]⟩
    exceptions := ⟨#[⟨.keyboardInterrupt, ⟨0⟩, [], []⟩]⟩ }

/-- The world after a walker has been made. -/
def world : World Unit :=
  Act.assembled furnished ([⟨0⟩].map .observer) .none .none (.float .zero) .none (.bool true)
    .empty .empty .empty furnished.lists

/-- Who takes part in the walks of the walker. -/
def cast : Cast := Act.castFor furnished [⟨0⟩] (.float .zero) default

/-- The walker comes across the node and nothing else. -/
def agenda : Agenda Unit :=
  .entry .feature [.node ⟨0⟩] (some (.coded ⟨0⟩ (some ⟨0⟩))) (.ask () .done) .done

theorem setsOut : cast.SetsOut code (fun _ => True) .feature [.node ⟨0⟩] agenda world where
  assembled := Act.assembled_assembled (by simp [furnished, Store.get, ObserverClass.kind])
    (fun _ => rfl) ⟨_, rfl⟩ default
  idle := Act.assembled_held default
  announces := by decide
  whole := ⟨_, _, rfl⟩
  fits := by
    refine ⟨rfl, fun v hv => ?_, .coded rfl rfl (by simp) ⟨by simp, .inl ⟨rfl, rfl⟩⟩, trivial,
      trivial⟩
    obtain rfl : Value.node ⟨0⟩ = v := Option.some.inj hv
    exact ⟨fun name _ => rfl, by simp⟩
  coded := ⟨fun r own h => by cases h; rfl, trivial, trivial⟩

end Bearer

end GuardedWalk

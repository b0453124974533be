import GuardedWalk.Proofs.Walk.Enclosing

/-!
# Entry methods do what the catalogue says of their events

Observers hear of an event what the catalogue says of it: that it begins, with its arguments in
order, then what the calls in between let them hear, and that it ends. It does not matter what nodes
do in their traversals as long as they receive the walker without a failure.

A node that is left with half a guard does not receive it, although nothing is wrong with its
traversal. Observers then hear that the event begins, and the entry method fails.

## Main definitions

* `GuardedWalk.Event.entries` — the entry methods that an entry method calls, and the method itself.
* `GuardedWalk.Cast.Receives` — a value that is asked for its traversal receives the walker without
  a failure.

## Main results

* `GuardedWalk.Cast.Keeps.makes_result` — what is called within the result of a step.
* `GuardedWalk.Cast.Keeps.refuses` — a node with half a guard refuses the walker.
* `GuardedWalk.Cast.entry_encloses` — what observers hear of each event.
-/

set_option autoImplicit false

namespace GuardedWalk

variable {ε κ : Type}

open Walk (Steps)
open World (Declines)

/-- The entry methods that an entry method calls, with what they are given, after the method
itself. -/
def Event.entries (e : Event) (args : List Value) : List (Event × List Value) :=
  (e, args) :: if e = .stepResult then resultCalls args else []

/-- What is called for the parts of a step's result encloses nothing, but for the argument. -/
theorem leaf_of_mem_resultCalls {args : List Value} {p : Event × List Value}
    (hp : p ∈ resultCalls args) (hne : p.1 ≠ .multilineArg) :
    p.1.isComposite = false ∧ p.2.length = p.1.params.length := by
  unfold resultCalls at hp
  split at hp
  · simp only [List.mem_append, List.mem_singleton, List.mem_ite_nil_left] at hp
    rcases hp with (rfl | ⟨-, hp⟩) | ⟨-, hp⟩
    · exact ⟨rfl, rfl⟩
    · exact absurd (congrArg Prod.fst hp) hne
    · subst hp
      exact ⟨rfl, rfl⟩
  · cases hp

/-- The result of a step has one argument at most. -/
theorem resultCalls_argument {args : List Value} {m m' : Value}
    (hm : (.multilineArg, [m]) ∈ resultCalls args)
    (hm' : (.multilineArg, [m']) ∈ resultCalls args) : m = m' := by
  unfold resultCalls at hm hm'
  split at hm
  · simp_all
  · cases hm

namespace Cast

/-- A value that is asked for its traversal receives the walker without a failure. For a node it is
enough that what the node shows to visitors does, whatever guards have made of that, unless only
half a guard can be put on the node. -/
inductive Receives (X : Cast) (F : Foreign ε κ) (D : Ref .list → Prop) (S : Surroundings ε κ)
    (I : World ε → List (Occasion κ) → Prop) (w : World ε) : Value → Prop where
  /-- The value is asked for its traversal, and that does not fail. -/
  | asked {v : Value} (succeeds : (X.overheard D I).Succeeds S I
      (Walk.send v .accept [.walker X.walker])) : Receives X F D S I w v
  /-- What becomes of the walker at the node does not fail. -/
  | shown {r : Ref .node} {way : Option Value} (welcomes : w.Welcomes r way)
      (succeeds : (X.overheard D I).Succeeds S I
        (Walk.shownWay F X.thread r (.walker X.walker) way)) : Receives X F D S I w (.node r)

variable {X : Cast} {F : Foreign ε κ} {D : Ref .list → Prop} {S : Surroundings ε κ}
  {I J : World ε → List (Occasion κ) → Prop} {w : World ε} {pins : List Pin} {h : Hold}
  {L : List (Occasion κ)} {σ : Moment ε κ} {e : Event} {args : List Value} {v : Value}

/-- Something that a walk does not disturb lets a value receive the walker. -/
theorem Receives.prepared (hr : X.Receives F D S I w v) (hI : X.Keeps D F.obstruct I)
    (hS : X.Attended F D (fun _ => none) S) (hi : I w []) :
    ∃ J, X.Keeps D F.obstruct J ∧ J w [] ∧ (∀ w L, J w L → I w L) ∧
      (X.overheard D I).Succeeds S J (Walk.send v .accept [.walker X.walker]) := by
  cases hr with
  | asked succeeds => exact ⟨I, hI, hi, fun _ _ h => h, succeeds⟩
  | @shown r way welcomes succeeds =>
    have hJ := hI.and (Keeps.welcomes r way)
    refine ⟨_, hJ, ⟨hi, welcomes⟩, fun _ _ h => h.1, fun pins s n L σ hg => ?_⟩
    refine Setting.Going.accept (Z := X.overheard D _) hg (hJ.hosts hS) (fun _ _ h => h.2.greets)
      (fun _ _ hq => ?_) fun ps σ₁ hg₁ => ?_
    · obtain ⟨hv, L', hg'⟩ := hq
      exact ⟨hv, L', hg'.returned⟩
    · refine Surroundings.Yields.mono (succeeds _ s n L σ₁
        (Setting.Going.relax (Z := X.overheard D I) hg₁ fun _ _ h => h.1)) ?_
      rintro r σ₂ ⟨hv, L', hg₂⟩
      exact ⟨hv, L', hg₂.unpins ps⟩

namespace Keeps

/-- An event that has been announced within a walk is part of it. -/
theorem succeeds {cs : List (Call κ)}
    (ha : ∀ pins s n L σ, (X.overheard D J).Going pins (.owned s n) L σ →
      S.Yields (.free ε κ) σ (Walk.send (.walker X.walker) (.entry e) args) fun r σ' =>
        r = .ok .none ∧ (X.overheard D I).Announced S pins (.owned s n) L
          (Walk.send (.walker X.walker) (.entry e) args) σ e args cs σ') :
    (X.overheard D I).Succeeds S J (Walk.send (.walker X.walker) (.entry e) args) := by
  intro pins s n L σ hg
  refine Surroundings.Yields.mono (ha pins s n L σ hg) ?_
  rintro r σ' ⟨rfl, L', H, hg', -⟩
  exact ⟨⟨_, rfl⟩, L', hg'⟩

/-- The block of an event that enters a node asks the node for its traversal, once. -/
theorem makes_accept (hJ : X.Keeps D F.obstruct J) (hS : X.Attended F D (fun _ => none) S)
    (he : e.entersNode = true)
    (hv : (X.overheard D I).Succeeds S J (Walk.send v .accept [.walker X.walker])) :
    (X.overheard D I).Makes S J (Walk.runBlock F (.walker X.walker) e [v])
      [.send v .accept [.walker X.walker]] := by
  intro pins s n L σ hg
  refine Setting.Going.enteringBlock (Z := X.overheard D J) hg (hJ.hosts hS) he
    (fun _ b _ hr => ⟨⟨b, rfl⟩, hr.2⟩) fun σ₁ hg₁ hin => ?_
  refine Surroundings.Yields.mono (hv.makes pins s n L σ₁ hg₁) ?_
  rintro r σ₂ ⟨hr, L', hg₂, hw⟩
  exact ⟨hr, L', hg₂, hw.mono hin⟩

/-- The result of a step is told as its name, its argument and its exception. -/
theorem makes_result (hJ : X.Keeps D F.obstruct J) (hI : X.Keeps D F.obstruct I)
    (hJI : ∀ w L, J w L → I w L) (hS : X.Attended F D (fun _ => none) S)
    (hlen : args.length = Event.stepResult.params.length)
    (hd : ∀ w L, I w L → ∀ p ∈ resultCalls args, ∀ v ∈ p.2.head?, Declines X D F.obstruct w v)
    (harg : ∀ m, (.multilineArg, [m]) ∈ resultCalls args →
      (X.overheard D I).Succeeds S J (Walk.send m .accept [.walker X.walker])) :
    (X.overheard D I).Makes S J (Walk.stepResultBlock (.walker X.walker) args)
      ((resultCalls args).map fun p => .send (.walker X.walker) (.entry p.1) p.2) := by
  have hleaf : ∀ {K}, X.Keeps D F.obstruct K → (∀ w L, K w L → I w L) →
      ∀ p ∈ resultCalls args, p.1 ≠ .multilineArg →
      (X.overheard D K).Succeeds S K (Walk.send (.walker X.walker) (.entry p.1) p.2) := by
    intro K hK hKI p hp hne
    obtain ⟨hsingle, hlen⟩ := leaf_of_mem_resultCalls hp hne
    exact succeeds fun pins s n L σ hg => hK.announces_leaf hS hlen hsingle (fun _ => trivial)
      (fun w L hi => hd w L (hKI w L hi) p hp) hg
  rw [Setting.stepResultBlock_eq _ hlen]
  obtain ⟨keyword, stepMatch, multilineArg, status, exception, sourceIndent, background, rfl⟩ :=
    Event.args_of_stepResult hlen
  by_cases hnone : multilineArg = .none
  · refine Setting.Makes.weaken (Setting.Makes.enterAll (Z := X.overheard D I) fun p hp =>
      hleaf hI (fun _ _ h => h) p hp ?_) hJI
    intro he
    simp [resultCalls, hnone, Prod.ext_iff, he] at hp
  · have hm : (.multilineArg, [multilineArg]) ∈ resultCalls
        [keyword, stepMatch, multilineArg, status, exception, sourceIndent, background] := by
      simp [resultCalls, hnone]
    have hname := hleaf hJ hJI
      (.stepName, [keyword, stepMatch, status, sourceIndent, background])
      (by simp [resultCalls]) (by simp)
    have hexception : ∀ p ∈ if exception = .none then [] else
        [(Event.exception, [exception, status])],
        (X.overheard D I).Succeeds S I (Walk.send (.walker X.walker) (.entry p.1) p.2) := by
      intro p hp
      refine hleaf hI (fun _ _ h => h) p (by simp [resultCalls, hp]) ?_
      obtain ⟨-, rfl⟩ : exception ≠ .none ∧ p = (.exception, [exception, status]) := by
        simpa using hp
      simp
    -- what is known of the argument is known until it has received the walker
    simp only [resultCalls, hnone, if_false, List.cons_append, List.nil_append]
    refine Setting.Makes.bind (Z := X.overheard D I) (K := J) hname.makes fun _ =>
      Setting.Makes.bind (K := I) (Setting.Succeeds.makes ?_) fun _ =>
        Setting.Makes.enterAll (Z := X.overheard D I) hexception
    exact succeeds fun pins s n L σ hg => hJ.announces_around hI hS rfl rfl trivial
      (fun w L hi => hd w L (hJI w L hi) _ hm) (hJ.makes_accept hS rfl (harg _ hm)) hg

/-! ## Nodes with half a guard -/

/-- **A node with half a guard refuses the walker**: what it shows misses the tag. -/
theorem refuses (hJ : X.Keeps D F.obstruct J) (hS : X.Attended F D (fun _ => none) S)
    {r : Ref .node} {name : String}
    (hhalf : ∀ w, J w L → w.Unanswered r ∧ w.typeName (.node r) = name)
    (hg : (X.overheard D J).Going pins h L σ) :
    S.Yields (.free ε κ) σ (Walk.send (.node r) .accept [.walker X.walker]) fun o σ' =>
      o = .error (.missingAttribute name Node.guardField) ∧
        (X.overheard D J).Going pins h L σ' := by
  refine hg.asked (hJ.hosts hS).toBears fun σ₁ hscene hinv hheard hwindow => ?_
  obtain ⟨⟨⟨x, hx, hlt, hnode⟩, htag⟩, -⟩ := hhalf _ hinv
  refine .inr ⟨.wrapper x, World.member_of_carried rfl hx, ?_⟩
  rw [if_neg (by simp [World.isGuarded, htag])] at hwindow
  -- the wrapper is for the node from now on
  let K : World ε → List (Occasion κ) → Prop := fun w L =>
    J w L ∧ x.index < w.wrappers.cells.size ∧ (w.wrappers.get x).node = .node r
  have hK : X.Keeps D F.obstruct K := hJ.and (.of_frame fun V w w' hf hw =>
    ⟨Nat.lt_of_lt_of_le hw.1 hf.wrappers.1,
      (congrArg Prod.fst (hf.wrappers.2 x hw.1)).trans hw.2⟩)
  have hZ := (hK.hosts hS).toBears
  have hg₁ : (X.overheard D K).Going pins h L σ₁ := ⟨hscene, ⟨hinv, hlt, hnode⟩, hheard, hwindow⟩
  refine .bind (.bind (hg₁.read hZ fun w σ₂ _ hg₂ => .pure ?_))
  refine .bind (hg₂.turn hZ K fun w hw hi => ⟨pins, h, hw, hi, fun σ₃ hg₃ => ?_⟩)
  dsimp only
  rw [hi.2.2]
  refine .bind (hg₃.turn hZ J fun w hw hi => ?_)
  obtain ⟨hun, hname⟩ := hhalf w hi.1
  have hread : (Act.read (.node r) Node.guardField).run w =
      (.error (.missingAttribute (w.typeName (.node r)) Node.guardField), w) := by
    simp only [Act.read, Act.run_bind, Act.run_look, World.member_untagged hun.tag]
  rw [hread, hname]
  exact ⟨pins, h, hw, hi.1, fun σ₄ hg₄ => ⟨rfl, hg₄.returned.returned⟩⟩

/-- Observers hear that an event begins that is about such a node, and then the entry method
fails. -/
theorem fails_at_half (hJ : X.Keeps D F.obstruct J) (hS : X.Attended F D (fun _ => none) S)
    (he : e.entersNode = true) {r : Ref .node} {name : String}
    (hhalf : ∀ w L, J w L → .guarded (.node r) ∈ L →
      w.Unanswered r ∧ w.typeName (.node r) = name)
    (ht : (X.overheard D J).Timed h) (hd : ∀ w L, J w L → Declines X D F.obstruct w (.node r))
    (hg : (X.overheard D J).Going pins h L σ) :
    S.Yields (.free ε κ) σ (Walk.send (.walker X.walker) (.entry e) [.node r]) fun o σ' =>
      o = .error (.missingAttribute name Node.guardField) ∧
        X.heard σ'.calls = Occasion.callbacks L ++ X.toAll (.before e [.node r]) := by
  have hZ := hJ.hosts hS
  have hblock : ∀ pins s n L σ, .guarded (.node r) ∈ L →
      (X.overheard D J).Going pins (.owned s n) L σ →
      S.Yields (.free ε κ) σ (Walk.runBlock F (.walker X.walker) e [.node r]) fun o σ' =>
        o = .error (.missingAttribute name Node.guardField) ∧
          (X.overheard D J).Going pins (.owned s n) L σ' :=
    fun pins s n L σ hL hg => hg.enteringBlock hZ he (fun _ _ _ hr => by cases hr.1)
      fun σ₁ hg₁ _ => hJ.refuses hS (fun w hi => hhalf w L hi hL) hg₁
  have hlen : [Value.node r].length = e.params.length := (Event.params_of_entersNode he).symm
  refine hg.entry hZ e hlen fun row σ₁ hg₁ _ => ?_
  rw [Setting.entryRest, if_neg (Event.ne_announce_of_entersNode he),
    if_pos (Event.isComposite_of_entersNode he)]
  refine Setting.Going.visit hZ ht e hg₁ (.inr rfl) fun s σ₂ hg₂ _ => ?_
  rw [Setting.rounds_of_block _ _ _ (by simp)]
  refine .bind (Surroundings.Yields.mono (hg₂.firstRound (hJ.listens hS _) (fun _ => rfl) e
    (hJ.admits_first (by simpa using hd) _)) ?_)
  rintro _ σ₃ ⟨⟨v, rfl⟩, hg₃⟩
  have hclose := Setting.closes hZ pins h fun _ => hJ.lasts
  obtain ⟨s', n, hs⟩ := h.inner_owned s
  rw [hs] at hg₃
  refine .bind (hg₃.block hZ.toBears e List.mem_cons_self fun σ₄ hg₄ _ => ?_)
  refine Surroundings.Yields.mono (hblock _ s' n _ σ₄ (by simp) hg₄) ?_
  rintro _ σ₅ ⟨rfl, hg₅⟩
  rw [← hs] at hg₅
  refine (hclose.released _ s _ _ hg₅.returned.returned).mono ?_
  rintro o σ₆ ⟨ho, hg₆⟩
  refine ⟨ho, rfl, ?_⟩
  have hheard := hg₆.returned.returned.heard_eq
  rw [Setting.callbacks_before] at hheard
  exact hheard

end Keeps

/-! ## Entry methods -/

/-- An entry method makes its calls between its two rounds of callbacks, and none of them fails.
Until a node is asked for its traversal, it is known how the node receives visitors. -/
theorem makes_enclosed (hI : X.Keeps D F.obstruct I) (hS : X.Attended F D (fun _ => none) S)
    (hi : I w []) (hlen : args.length = e.params.length) (hcomposite : e.isComposite = true)
    (hd : ∀ w L, I w L → ∀ p ∈ e.entries args, ∀ v ∈ p.2.head?, Declines X D F.obstruct w v)
    (hv : ∀ p ∈ e.entries args, p.1.entersNode = true → ∀ v ∈ p.2.head?,
      X.Receives F D S I w v) :
    ∃ J, X.Keeps D F.obstruct J ∧ J w [] ∧ (∀ w L, J w L → I w L) ∧
      (X.overheard D I).Makes S J (Walk.runBlock F (.walker X.walker) e args)
        (X.enclosed e args) := by
  by_cases hresult : e = .stepResult
  · subst hresult
    have hrest : ∀ w L, I w L → ∀ p ∈ resultCalls args, ∀ v ∈ p.2.head?,
        Declines X D F.obstruct w v := fun w L hi p hp =>
      hd w L hi p (List.mem_cons_of_mem _ hp)
    by_cases harg : ∃ m, (.multilineArg, [m]) ∈ resultCalls args
    · obtain ⟨m, hm⟩ := harg
      obtain ⟨J, hJ, hj, hJI, hsucceeds⟩ :=
        (hv _ (List.mem_cons_of_mem _ hm) rfl m rfl).prepared hI hS hi
      refine ⟨J, hJ, hj, hJI, hJ.makes_result hI hJI hS hlen hrest fun m' hm' => ?_⟩
      obtain rfl := resultCalls_argument hm hm'
      exact hsucceeds
    · exact ⟨I, hI, hi, fun _ _ h => h, hI.makes_result hI (fun _ _ h => h) hS hlen hrest
        fun m hm => absurd ⟨m, hm⟩ harg⟩
  · have he : e.entersNode = true := by simp [Event.entersNode, hcomposite, hresult]
    obtain ⟨v, rfl⟩ := List.length_eq_one_iff.1 (hlen.trans (Event.params_of_entersNode he))
    obtain ⟨J, hJ, hj, hJI, hsucceeds⟩ := (hv _ List.mem_cons_self he v rfl).prepared hI hS hi
    refine ⟨J, hJ, hj, hJI, ?_⟩
    rw [enclosed, if_neg hresult, if_pos hcomposite]
    exact hJ.makes_accept hS he hsucceeds

/-- **What observers hear of an event**, at any point of a walk or outside of one, if they listen,
and if foreign code fails as guards expect it to.

They hear that the event begins, with its arguments in order, and in the end that it ends. In
between they hear what some calls let them hear, and nothing else: if a node is handed on, the node
is asked for its traversal; within the result of a step its parts that are present are announced.

If a node is handed on that takes half a guard, observers hear that the event begins, and nothing
else, whatever the traversal of the node is. -/
theorem entry_encloses (hS : X.Attended F D (fun _ => none) S) (hI : X.Keeps D F.obstruct I)
    (hX : X.Assembled w) (hh : Held w X h)
    (ht : e ≠ .announce → h = .idle → X.timeout.outlastsTime = false) (hi : I w [])
    (hlen : args.length = e.params.length)
    (hd : ∀ w L, I w L → ∀ p ∈ e.entries args, ∀ v ∈ p.2.head?, Declines X D F.obstruct w v) :
    ((∀ p ∈ e.entries args, p.1.entersNode = true → ∀ v ∈ p.2.head?,
        X.Receives F D S I w v) →
      ∃ σ H, S.Runs (Walk.send (.walker X.walker) (.entry e) args) (.start w)
          (.ok .none : Outcome) σ ∧
        S.Within X.heard (Walk.send (.walker X.walker) (.entry e) args) (.start w)
          (X.enclosed e args) (X.toAll (.before e args)) H ∧
        X.heard σ.calls = H ++ X.toAll .after) ∧
    ∀ r, e.entersNode = true → args = [.node r] → w.TakesHalf (.node r) →
      ∃ σ, S.Runs (Walk.send (.walker X.walker) (.entry e) args) (.start w)
          (.error (.missingAttribute (w.typeName (.node r)) Node.guardField) : Outcome) σ ∧
        X.heard σ.calls = X.toAll (.before e args) := by
  have htimed : ∀ J : World ε → List (Occasion κ) → Prop, e ≠ .announce →
      (X.overheard D J).Timed h := by
    intro J hannounce
    cases h with
    | idle => exact Value.isTimeout_of_number hX.timeout (ht hannounce rfl)
    | owned s n => trivial
  have hgoing : ∀ J : World ε → List (Occasion κ) → Prop, J w [] →
      (X.overheard D J).Going [] h [] (.start w) := fun J hj =>
    ⟨⟨hX, hh, by simp, trivial⟩, hj, rfl, rfl⟩
  have hfirst : ∀ w L, I w L → ∀ v ∈ args.head?, Declines X D F.obstruct w v :=
    fun w L hi => hd w L hi _ List.mem_cons_self
  refine ⟨fun hv => ?_, fun r he hargs hr => ?_⟩
  · have hrun : S.Yields (.free ε κ) (.start w) (Walk.send (.walker X.walker) (.entry e) args)
        fun o σ => o = .ok .none ∧ (X.overheard D I).Announced S [] h []
          (Walk.send (.walker X.walker) (.entry e) args) (.start w) e args (X.enclosed e args) σ := by
      by_cases hcomposite : e.isComposite = true
      · obtain ⟨J, hJ, hj, hJI, hmakes⟩ := makes_enclosed hI hS hi hlen hcomposite hd hv
        have hannounce : e ≠ .announce := by
          rintro rfl
          cases hcomposite
        exact hJ.announces_around hI hS hlen hcomposite (htimed J hannounce)
          (fun w L hi => hfirst w L (hJI w L hi)) hmakes (hgoing J hj)
      · have hleaf : X.enclosed e args = ([] : List (Call κ)) := by
          rw [enclosed, if_neg (by rintro rfl; exact hcomposite rfl), if_neg hcomposite]
        rw [hleaf]
        exact hI.announces_leaf hS hlen (by simpa using hcomposite) (htimed I) hfirst (hgoing I hi)
    obtain ⟨_, σ, hruns, -, rfl, L', H, hg, hw, hL⟩ := hrun
    exact ⟨σ, H, hruns, hw, hg.heard_eq.trans hL⟩
  · subst hargs
    have hname : X.Keeps D F.obstruct fun w' (_ : List (Occasion κ)) =>
        w'.typeName (.node r) = w.typeName (.node r) :=
      .of_frame fun _ _ _ hf h => (congrArg NodeClass.name (hf.nodes r)).trans h
    have hJ := (hI.and (Keeps.half r)).and hname
    obtain ⟨_, σ, hruns, -, rfl, hheard⟩ := hJ.fails_at_half hS he
      (fun w' L hj hL => ⟨hj.1.2.2 hL, hj.2⟩) (htimed _ (Event.ne_announce_of_entersNode he))
      (fun w' L hj => hfirst w' L hj.1.1 _ rfl) (hgoing _ ⟨⟨hi, hr, by simp⟩, rfl⟩)
    exact ⟨σ, hruns, hheard⟩

end Cast

/-! ## Two nodes -/

namespace Doorway

open Cast

/-- A node that can be given any attribute but the tag. -/
def stubborn : Node :=
  ⟨.foreign ⟨1, "Stub", .code, true, some ⟨some Node.guardField⟩, false⟩, []⟩

/-- In its own traversal the first node has a tag name announced. The second one says that there is
no place for a tag. -/
def code : Foreign Unit Empty :=
  { Foreign.silent (.missingAttribute "Stub" Node.guardField) with
    accept := fun _ _ _ visitor => Walk.send visitor (.entry .tagName) [.text "wip"] }

/-- A world with two nodes, an observer and a guard. -/
def furnished : World Unit := { Bearer.furnished with nodes := ⟨#[Bearer.node, stubborn]⟩ }

/-- The world after a walker has been made. -/
def world : World Unit :=
  Act.assembled furnished ([⟨0⟩].map .observer) .none .none (.float .zero) .none (.bool true)
    .empty .empty .empty furnished.lists

/-- Who takes part in the walks of the walker. -/
def cast : Cast := Act.castFor furnished [⟨0⟩] (.float .zero) default

/-- The two nodes go on failing as guards expect. -/
def Kept (w : World Unit) (_ : List (Occasion Empty)) : Prop :=
  ∀ v ∈ [.node ⟨0⟩, .node ⟨1⟩], Declines cast (fun _ => True) code.obstruct w v

theorem keeps : cast.Keeps (fun _ => True) code.obstruct Kept := Keeps.declines _

theorem kept : Kept world [] := by
  intro v hv name _ id hid w
  simp only [List.mem_cons, List.not_mem_nil, or_false] at hv
  rcases hv with rfl | rfl
  · cases hid
  · exact ⟨.refl _ _ w, rfl⟩

/-- The first node receives the walker: its own traversal is a leaf of the walk. -/
theorem receives : cast.Receives code (fun _ => True) (cast.quietly code fun _ => none) Kept world
    (.node ⟨0⟩) := by
  have hS := cast.attended_quietly code (fun _ => True) fun _ => none
  have welcomes : world.Welcomes ⟨0⟩ (some (.ownAccept ⟨0⟩)) :=
    ⟨⟨by simp, .inl ⟨rfl, rfl⟩⟩, fun h => absurd h.tag (by decide)⟩
  refine .shown welcomes fun pins s n L σ hg => ?_
  refine .bind (.bind (hg.read (keeps.hosts hS).toBears fun w σ₁ _ hg₁ => .pure ?_))
  exact Keeps.succeeds (fun pins s n L σ hg => keeps.announces_leaf hS rfl rfl (fun _ => trivial)
    (fun w L _ v hv => by
      obtain rfl : Value.text "wip" = v := Option.some.inj hv
      exact World.Open.declines fun _ _ => rfl) hg) pins s n L σ₁ hg₁

end Doorway

open Doorway in
/-- Observers hear what the traversal of the first node tells them, and of the second node only that
an event begins. -/
theorem Cast.entry_encloses_doorway :
    (∃ σ H, (cast.quietly code fun _ => none).Runs
        (Walk.send (.walker cast.walker) (.entry .feature) [.node ⟨0⟩]) (.start world)
        (.ok .none : Outcome) σ ∧
      (cast.quietly code fun _ => none).Within cast.heard
        (Walk.send (.walker cast.walker) (.entry .feature) [.node ⟨0⟩]) (.start world)
        [.send (.node ⟨0⟩) .accept [.walker cast.walker]]
        (cast.toAll (.before .feature [.node ⟨0⟩])) H ∧
      cast.heard σ.calls = H ++ cast.toAll .after) ∧
    ∃ σ, (cast.quietly code fun _ => none).Runs
        (Walk.send (.walker cast.walker) (.entry .feature) [.node ⟨1⟩]) (.start world)
        (.error (.missingAttribute "Stub" Node.guardField) : Outcome) σ ∧
      cast.heard σ.calls = cast.toAll (.before .feature [.node ⟨1⟩]) := by
  have hS := cast.attended_quietly code (fun _ => True) fun _ => none
  have hX : cast.Assembled world :=
    Act.assembled_assembled (by simp [furnished, Bearer.furnished, Store.get, ObserverClass.kind])
      (fun _ => rfl) ⟨_, rfl⟩ default
  have hidle : Held world cast .idle := Act.assembled_held default
  constructor
  · refine (entry_encloses (e := .feature) hS keeps hX hidle (fun _ _ => by decide) kept rfl
      fun w L hi p hp v hv => ?_).1 fun p hp _ v hv => ?_
    all_goals
      obtain rfl := List.mem_singleton.1 hp
      obtain rfl := Option.some.inj hv
    · exact hi _ (by simp)
    · exact receives
  · refine (entry_encloses (e := .feature) hS keeps hX hidle (fun _ _ => by decide) kept rfl
      fun w L hi p hp v hv => ?_).2 ⟨1⟩ rfl rfl ⟨⟨.bound .accept, rfl, rfl⟩, ?_, ?_, ?_, ?_⟩
    · obtain rfl := List.mem_singleton.1 hp
      obtain rfl := Option.some.inj hv
      exact hi _ (by simp)
    all_goals decide

end GuardedWalk

import GuardedWalk.Proofs.Parking.Registry
import GuardedWalk.Proofs.Walk.Asking

/-!
# What a policy shows of its registry

A policy that parks callers tells how many calls are registered and on which threads they came. Who
resumes or cancels calls learns how many have been woken. None of this depends on who asks, and
nothing but the woken calls changes.

## Main definitions

* `GuardedWalk.World.Parks` — a policy parks callers and carries what it was made with.
* `GuardedWalk.Parking.sought` — the registered calls of a thread, or all of them.
* `GuardedWalk.World.Rouses` — some calls have been woken, and nothing else has happened.

## Main results

* `GuardedWalk.Parking.Keeps.parkedCount`, `parkedNames` — the number of registered calls and the
  names of their threads.
* `GuardedWalk.Parking.Keeps.wakes` — what comes of resuming or cancelling calls.
-/

set_option autoImplicit false

namespace GuardedWalk

variable {ε κ : Type}

namespace World

/-- A policy parks callers and carries what it was made with. -/
def Parks (w : World ε) (p : Ref .policy) : Prop :=
  ∃ (timeout : Value) (k : Ref .lock) (d : Ref .dictionary),
    w.policies.get p = ⟨.park, Policy.parking timeout (.lock k) (.dictionary d)⟩

/-- From one world to another some calls have been woken, by a cancellation or not, and nothing else
has happened. -/
structure Rouses (cancelled : Bool) (calls : List (Ref .parked)) (w w' : World ε) : Prop where
  rest : w' = { w with parked := w'.parked }
  others : ∀ x, x ∉ calls → w'.parked.get x = w.parked.get x
  woken : ∀ x ∈ calls, Parking.isWoken w' x = true
  cancelled : ∀ x ∈ calls,
    w'.ownValue (.parked x) ParkedCall.cancelledField = .bool cancelled

theorem rouses_woken (w : World ε) (cancelled : Bool) (calls : List (Ref .parked)) :
    Rouses cancelled calls w (w.woken cancelled calls) where
  rest := w.woken_eq cancelled calls
  others x hx := by rw [get_woken, if_neg hx]
  woken x hx := by rw [Parking.isWoken, get_woken, if_pos hx]
  cancelled x hx := by
    simp [ownValue, own?, get_woken, hx, Attributes.value, Attributes.get?_set]

/-- What the class of a value works out is shown, wherever other values are asked on the way. -/
theorem member_of_getter {w : World ε} {v : Value} {name : String} {g : Getter}
    (h : w.getter? v name = some g) :
    ∃ fuel, w.member v name = w.workOut (w.memberWithin fuel) v g := by
  obtain ⟨n, hn⟩ : ∃ n, w.extent = n + 1 := ⟨_, rfl⟩
  refine ⟨n, ?_⟩
  unfold member memberWithin
  simp only [h, hn]

/-- What a policy that parks callers works out under a name. -/
theorem Parks.getter? {w : World ε} {p : Ref .policy} (h : w.Parks p) (name : String) :
    w.getter? (.policy p) name = parkGetter? name := by
  obtain ⟨timeout, k, d, hp⟩ := h
  simp [World.getter?, hp]

/-- A policy that parks callers carries nothing under the name of a method. -/
theorem Parks.unhidden {w : World ε} {p : Ref .policy} (h : w.Parks p) :
    w.Unhidden (.policy p) := by
  obtain ⟨timeout, k, d, hp⟩ := h
  refine unhidden_of_names ?_
  simp only [carried, own?, hp, Option.getD_some, Policy.parking, List.map_cons, List.map_nil]
  decide

/-- It can be told to wake calls. -/
theorem Parks.understands {w : World ε} {p : Ref .policy} (h : w.Parks p) {m : Message}
    (hm : m = .resume ∨ m = .cancel ∨ m = .wake) : w.understands (.policy p) m = true := by
  obtain ⟨timeout, k, d, hp⟩ := h
  rcases hm with rfl | rfl | rfl <;> simp [World.understands, hp]

end World

namespace Parking

open Act

variable {w : World ε} {p : Ref .policy} {d : Ref .dictionary} {l : Entries}

/-! ## What is told about the registry -/

/-- The number of registered calls is told. -/
theorem Keeps.parkedCount (h : Keeps w p d l) (hp : w.Parks p) :
    w.member (.policy p) "parked_count" = .ok (.value (.int l.length)) := by
  obtain ⟨k, hk⟩ := h.lock
  have hsize : w.length (.dictionary d) = .ok l.length := by
    have hlength := congrArg List.length h.pairs
    rw [pairsOf, List.length_map] at hlength
    exact congrArg Except.ok hlength
  obtain ⟨fuel, hfuel⟩ := World.member_of_getter (hp.getter? "parked_count")
  rw [hfuel]
  simp only [World.workOut, World.locked, World.lockProblem?, hk, h.registry, hsize]
  rfl

/-- The names of the threads of the registered calls are told, in order. -/
theorem Keeps.parkedNames (h : Keeps w p d l) (hp : w.Parks p)
    (hnames : ∀ e ∈ l, (w.carried (.parked e.2)).get? ParkedCall.threadField =
      some (.text e.1.name)) :
    w.member (.policy p) "parked_threads" = .ok (.listing (l.map fun e => .text e.1.name)) := by
  obtain ⟨k, hk⟩ := h.lock
  have hvalues : (w.dictionaries.get d).values = l.map fun e => .parked e.2 := by
    rw [Dictionary.values, h.pairs, pairsOf, List.map_map]
    rfl
  have hname (fuel : Nat) : ∀ e ∈ l, w.memberWithin fuel (.parked e.2) ParkedCall.threadField =
      .ok (.value (.text e.1.name)) := fun e he => by
    have hhere : w.memberHere (.parked e.2) ParkedCall.threadField =
        .ok (.value (.text e.1.name)) := World.memberHere_of_own (hnames e he)
    cases fuel <;> exact hhere
  obtain ⟨fuel, hfuel⟩ := World.member_of_getter (hp.getter? "parked_threads")
  have hall : ((w.dictionaries.get d).values.mapM fun call => do
        return (← w.memberWithin fuel call ParkedCall.threadField).plain) =
      Except.ok (l.map fun e => .text e.1.name) := by
    rw [hvalues, List.mapM_map]
    refine mapM_of_forall fun e he => ?_
    rw [Function.comp_apply, hname fuel e he]
    rfl
  rw [hfuel]
  simp only [World.workOut, World.locked, World.lockProblem?, hk, h.registry, hall]
  rfl

/-! ## Calls are resumed and cancelled -/

/-- The registered calls of the thread of a number, or all of them. -/
def sought (l : Entries) : Option Int → List (Ref .parked)
  | none => l.map (·.2)
  | some i => (l.filter fun e => e.1.number = .int i).map (·.2)

theorem same_int (w : World ε) (t : Thread) (i : Int) :
    w.same t.number (.int i) = decide (t.number = .int i) := by
  refine (Ownership.equal_int w _ i).trans ?_
  simp [Thread.number]

/-- At most one call is found of the thread of a number. -/
theorem toList_find? (h : (l.map (·.1.id)).Nodup) (i : Int) :
    (l.find? fun e => e.1.number = .int i).toList = l.filter fun e => e.1.number = .int i := by
  induction l with
  | nil => rfl
  | cons e rest ih =>
    obtain ⟨hnew, hrest⟩ := List.nodup_cons.1 h
    by_cases he : e.1.number = .int i
    · have hnone : (rest.filter fun e => decide (e.1.number = .int i)) = [] := by
        refine List.filter_eq_nil_iff.2 fun e' he' hi => hnew (List.mem_map.2 ⟨e', he', ?_⟩)
        have hsame := congrArg Thread.idOf? ((of_decide_eq_true hi).trans he.symm)
        simpa [Thread.idOf?_number] using hsame
      simp [he, hnone]
    · simpa [he] using ih hrest

/-- A wake is meant for what is sought, if no two calls are of one thread. -/
theorem meantIn_sought (h : (l.map (·.1.id)).Nodup) (ident : Option Int) :
    meantIn w l (ident.elim .none .int) = .ok (sought l ident) := by
  cases ident with
  | none => rfl
  | some i =>
    have hkey : w.keyProblem? (.int i) = none := rfl
    simp only [Option.elim, meantIn, reduceCtorEq, if_false, hkey, same_int, sought,
      toList_find? h]

/-- There is no more than one call of a thread. -/
theorem length_sought (h : (l.map (·.1.id)).Nodup) (ident : Option Int) :
    (sought l ident).length =
      match ident with
      | none => l.length
      | some i => if ∃ e ∈ l, e.1.number = .int i then 1 else 0 := by
  cases ident with
  | none => simp [sought]
  | some i =>
    simp only [sought, ← toList_find? h, List.length_map]
    cases hfind : l.find? fun e => decide (e.1.number = .int i) with
    | none =>
      have hno : ¬ ∃ e ∈ l, e.1.number = .int i := by
        simpa using List.find?_eq_none.1 hfind
      simp [hno]
    | some e =>
      have hi := List.find?_some hfind
      have hex : ∃ e ∈ l, e.1.number = .int i :=
        ⟨e, List.mem_of_find?_eq_some hfind, of_decide_eq_true hi⟩
      simp [hex]

/-- What is answered to a wake. -/
theorem Keeps.reply_wake (h : Keeps w p d l) (hl : (l.map (·.1.id)).Nodup)
    (obstruct : Obstruction ε) (cancelled : Bool) (ident : Option Int) :
    (Reply.reply obstruct (.policy p) .wake [ident.elim .none .int, .bool cancelled]).run w =
      (.ok (.int (sought l ident).length), w.woken cancelled (sought l ident)) := by
  have hrun := wake_run h obstruct (ident.elim .none .int) cancelled
  rw [meantIn_sought hl] at hrun
  simp only [Reply.reply, List.headD_cons, List.getD_cons_succ, List.getD_cons_zero, run_bind, hrun]
  rfl

/-- The calls that are sought are woken, and how many they are is told. -/
theorem Keeps.wake_yields (h : Keeps w p d l) (hp : w.Parks p) (hl : (l.map (·.1.id)).Nodup)
    (F : Foreign ε κ) (t : Thread) (cancelled : Bool) (ident : Option Int) {σ : Moment ε κ}
    (hw : σ.world = w) :
    (Surroundings.alone (Walk.body F t)).Yields (.free ε κ) σ
      (Walk.send (.policy p) .wake [ident.elim .none .int, .bool cancelled])
      fun o σ' => o = .ok (.int (sought l ident).length) ∧
        σ'.world = w.woken cancelled (sought l ident) := by
  let c : Call κ := .send (.policy p) .wake [ident.elim .none .int, .bool cancelled]
  have h₀ : (σ.calling c).Asked w (σ.calling c) := ⟨hw, [], by simp⟩
  have hS := Surroundings.calm_alone F t
  refine .invoke rfl trivial ?_
  refine hS.delivered h₀ (hp.understands (.inr (.inr rfl))) (hp.unhidden _ (by simp)) rfl
    fun σ₁ h₁ => ?_
  exact hS.step h₁ (h.reply_wake hl F.obstruct cancelled ident) fun σ₂ h₂ => ⟨rfl, h₂.world⟩

/-- **Who resumes or cancels calls learns how many have been woken**, and nothing else happens. -/
theorem Keeps.wakes (h : Keeps w p d l) (hp : w.Parks p) (hl : (l.map (·.1.id)).Nodup)
    (F : Foreign ε κ) (t : Thread) (cancelled : Bool) (ident : Option Int) {σ : Moment ε κ}
    (hw : σ.world = w) :
    (Surroundings.alone (Walk.body F t)).Yields (.free ε κ) σ
      (Walk.send (.policy p) (if cancelled then .cancel else .resume) (ident.toList.map .int))
      fun o σ' => o = .ok (.int (sought l ident).length) ∧
        σ'.world = w.woken cancelled (sought l ident) := by
  have hS := Surroundings.calm_alone F t
  -- both methods hand the call on to the one that wakes
  have hfirst {m : Message} (hm : m = .resume ∨ m = .cancel)
      (hanswer : ∀ args : List Value, Walk.answer F t (.policy p) m args =
        Walk.send (.policy p) .wake [args.headD .none, .bool cancelled]) :
      (Surroundings.alone (Walk.body F t)).Yields (.free ε κ) σ
        (Walk.send (.policy p) m (ident.toList.map .int))
        fun o σ' => o = .ok (.int (sought l ident).length) ∧
          σ'.world = w.woken cancelled (sought l ident) := by
    let c : Call κ := .send (.policy p) m (ident.toList.map .int)
    have h₀ : (σ.calling c).Asked w (σ.calling c) := ⟨hw, [], by simp⟩
    have hself : m.needsNoObject = false := by rcases hm with rfl | rfl <;> rfl
    have hproblem : w.argumentProblem? (if m.needsNoObject then .none else .policy p) m
        (ident.toList.map Value.int).length = none := by
      rcases hm with rfl | rfl <;> cases ident <;> rfl
    refine .invoke rfl trivial ?_
    refine hS.delivered h₀ (hp.understands (hm.imp_right .inl))
      (hp.unhidden m (by rcases hm with rfl | rfl <;> simp)) hproblem fun σ₁ h₁ => ?_
    rw [hself, if_neg (by simp), hanswer]
    have hargs : (ident.toList.map Value.int).headD .none = ident.elim .none .int := by
      cases ident <;> rfl
    rw [hargs]
    exact h.wake_yields hp hl F t cancelled ident h₁.world
  cases cancelled with
  | true => exact hfirst (.inr rfl) fun _ => rfl
  | false => exact hfirst (.inl rfl) fun _ => rfl

end Parking

end GuardedWalk

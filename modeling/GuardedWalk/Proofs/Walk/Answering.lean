import GuardedWalk.Proofs.Walk.Asking
import GuardedWalk.Proofs.Walk.Recorder
import GuardedWalk.Proofs.World.Policing

/-!
# What comes of an attempt

A visitor without a guard of its own asks a guarded node for its traversal. The policy of the guard
that answers for the node at that moment refuses or writes one report, and the node is not
traversed. Either way nothing else happens: no other policy gets a report, and nobody but guards,
policies and their lists is called.

## Main definitions

* `GuardedWalk.Call.isAside` — calls that are made when a visitor is turned away.
* `GuardedWalk.Answered` — how an attempt ends, and what is reported about it.

## Main results

* `GuardedWalk.Walk.attempt_yields` — an attempt at a guarded node is answered.
-/

set_option autoImplicit false

namespace GuardedWalk

variable {ε κ : Type}

/-- Whether a call is one of those that are made when a visitor is turned away: a node is asked, or
a guard, or a policy, or something is done with a list. -/
def Call.isAside : Call κ → Bool
  | send _ .accept _ | send _ .dispatch _ | send _ .isCanonical _ | send _ .isOwned _
  | send _ .handle _ | send (.list _) .append _ | send (.list _) .pop _ => true
  | _ => false

theorem Call.isAside_of_asks {c : Call κ} (h : c.asks = true) : c.isAside = true := by
  unfold asks at h
  split at h
  · rfl
  · rfl
  · rfl
  · cases h

/-- From one moment to another nothing has been called but such. -/
def Moment.Turns (σ σ' : Moment ε κ) : Prop :=
  ∃ l, σ'.calls = σ.calls ++ l ∧ ∀ c ∈ l, c.isAside = true

namespace Moment.Turns

variable {σ σ₁ σ' : Moment ε κ}

theorem of_calls (h : σ'.calls = σ.calls) : σ.Turns σ' := ⟨[], by simp [h], by simp⟩

theorem of_asked {w : World ε} (h : σ.Asked w σ') : σ.Turns σ' := by
  obtain ⟨l, hl, hall⟩ := h.calls
  exact ⟨l, hl, fun c hc => Call.isAside_of_asks (hall c hc)⟩

theorem of_call {c : Call κ} (h : σ'.calls = σ.calls ++ [c]) (hc : c.isAside = true) :
    σ.Turns σ' := ⟨[c], h, by simpa using hc⟩

theorem trans (h : σ.Turns σ₁) (h' : σ₁.Turns σ') : σ.Turns σ' := by
  obtain ⟨l, hl, hall⟩ := h
  obtain ⟨l', hl', hall'⟩ := h'
  refine ⟨l ++ l', by rw [hl', hl, List.append_assoc], fun c hc => ?_⟩
  rcases List.mem_append.1 hc with hc | hc
  · exact hall c hc
  · exact hall' c hc

/-- Others hear of nothing. -/
theorem occasions (h : σ.Turns σ') (X : Cast) : X.occasions σ'.calls = X.occasions σ.calls := by
  obtain ⟨l, hl, hall⟩ := h
  have hquiet : X.occasions l = [] := by
    rw [Cast.occasions, List.filterMap_eq_nil_iff]
    intro c hc
    have haside := hall c hc
    unfold Call.isAside at haside
    split at haside
    case h_8 => cases haside
    all_goals simp [Cast.occasion?, Cast.heard?]
  rw [hl, Cast.occasions, List.filterMap_append]
  exact (congrArg (_ ++ ·) hquiet).trans (List.append_nil _)

end Moment.Turns

/-- How an attempt at a node ends under a policy of a kind, and what is reported about it. -/
inductive Answered (t : Thread) (r : Ref .node) (visitor : Value) (w : World ε) :
    PolicyBody → Outcome → World ε → Prop where
  /-- The attempt comes to nothing. The policy of the guard that answers for the node has got one
  more report, which is about this attempt, and no other policy has got any. -/
  | recorded {g : Ref .guard} {p : Ref .policy} {d : Ref .dictionary} {w' : World ε}
    (tag : w.tag? (.node r) = some (.guard g))
    (policy : w.ownValue (.guard g) Guard.policyField = .policy p)
    (reports : w'.reports p = w.reports p ++ [.dictionary d])
    (report : w'.dictionaries.get d = Reports.report (w.attempt t (.node r) visitor))
    (others : ∀ p', p' ≠ p → w'.reports p' = w.reports p') :
    Answered t r visitor w .record (.ok .none) w'
  /-- The attempt fails, and no policy gets a report. -/
  | rejected {w' : World ε} (reports : ∀ p, w'.reports p = w.reports p) :
    Answered t r visitor w .reject
      (.error (.foreignTraversal (w.attempt t (.node r) visitor) .rejected)) w'

namespace World

variable {w : World ε}

/-- A report is written, and something may be logged. -/
def withReport (w : World ε) (l : Ref .list) (d : Dictionary) (j : List LogRecord) : World ε :=
  { w with
    dictionaries := w.dictionaries.add d
    lists := w.lists.modify l (·.push (.dictionary w.dictionaries.next))
    journal := j }

theorem beside_withReport {E : Ref .list → Prop} {l : Ref .list} (hl : ¬ E l) (d : Dictionary)
    (j : List LogRecord) : Beside E w (w.withReport l d j) := by
  refine beside_contents (fun l' hl' => ?_) (.refl _ _)
  have hne : l' ≠ l := by
    rintro rfl
    exact hl hl'
  simp [Store.get_modify, hne]

/-- What policies have reported after one more report has been written. -/
theorem reports_withReport {l : Ref .list} (d : Dictionary) (j : List LogRecord)
    (p : Ref .policy) :
    (w.withReport l d j).reports p =
      if w.ownValue (.policy p) Policy.reportsField = .list l then
        w.reports p ++ [.dictionary w.dictionaries.next]
      else w.reports p := by
  have hown : (w.withReport l d j).ownValue (.policy p) Policy.reportsField =
      w.ownValue (.policy p) Policy.reportsField := rfl
  simp only [reports, hown]
  split
  · rename_i l' hl'
    rw [hl']
    by_cases hl : l' = l
    · simp [hl, withReport, items, Store.get_modify]
    · simp [hl, withReport, items, Store.get_modify]
  · rename_i hno
    rw [if_neg (hno l)]

end World

/-- The policy that answers for a node has got a report about an attempt, in a list of its own. -/
theorem Answered.of_withReport {t : Thread} {r : Ref .node} {visitor : Value} {w : World ε}
    {g : Ref .guard} {p : Ref .policy} {l : Ref .list} (tag : w.tag? (.node r) = some (.guard g))
    (policy : w.ownValue (.guard g) Guard.policyField = .policy p)
    (hl : w.ownValue (.policy p) Policy.reportsField = .list l)
    (apart : ∀ p', w.ownValue (.policy p') Policy.reportsField = .list l → p' = p)
    (j : List LogRecord) :
    Answered t r visitor w .record (.ok .none)
      (w.withReport l (Reports.report (w.attempt t (.node r) visitor)) j) := by
  refine .recorded tag policy (d := w.dictionaries.next) ?_ ?_ fun p' hne => ?_
  · rw [World.reports_withReport, if_pos hl]
  · simp [World.withReport, Store.get_add]
  · rw [World.reports_withReport, if_neg fun hl' => hne (apart p' hl')]

/-! ## Policies -/

namespace Walk

open Surroundings

variable {F : Foreign ε κ} {t : Thread} {R : Rule ε κ} {σ : Moment ε κ} {w : World ε}
  {p : Ref .policy} {node visitor : Value} {E : Ref .list → Prop}

/-- A policy that records an attempt adds one report to its list. -/
theorem record_yields (hS : (alone (body F t)).Calm F t R) (hlists : Recorder.SparesLists R)
    (hw : σ.world = w) (hp : w.Files E p) {Q : Outcome → Moment ε κ → Prop}
    (hQ : ∀ (l : Ref .list) (j : List LogRecord) (σ' : Moment ε κ),
      w.ownValue (.policy p) Policy.reportsField = .list l → ¬ E l → σ.Turns σ' →
      σ'.world = w.withReport l (Reports.report (w.attempt t node visitor)) j →
      Q (.ok .none) σ') :
    (alone (body F t)).Yields R σ (record t p node visitor) Q := by
  obtain ⟨l, hl, hE⟩ := hp.reports
  obtain ⟨k, hk⟩ := hp.lock
  let d := Reports.report (w.attempt t node visitor)
  let w₁ : World ε := { w with dictionaries := w.dictionaries.add d }
  have h₀ : σ.Asked w σ := ⟨hw, [], by simp⟩
  refine .bind (hS.read h₀ fun σ₁ h₁ => ?_)
  have hadd : (Act.addDictionary d).run w = (.ok (.dictionary w.dictionaries.next), w₁) := rfl
  refine .bind (hS.step h₁ hadd fun σ₂ h₂ => ?_)
  refine .bind (hS.own h₂ fun σ₃ h₃ => ?_)
  rw [show w₁.ownValue (.policy p) Policy.lockField = .lock k from hk]
  have hlock : (Act.checkLock (.lock k)).run w₁ = (.ok (), w₁) := rfl
  refine .bind (hS.step h₃ hlock fun σ₄ h₄ => ?_)
  refine .bind (Recorder.appendTo_yields hlists (l := l) (by rw [h₄.world]; exact hl)
    fun σ₅ hw₅ _ hc₅ => ?_)
  have hturns : σ.Turns σ₅ := (Moment.Turns.of_asked h₄).trans (.of_call hc₅ rfl)
  have h₅ : σ₅.Asked (w.withReport l d w.journal) σ₅ := ⟨by rw [hw₅, h₄.world]; rfl, [], by simp⟩
  refine .bind (hS.own h₅ fun σ₆ h₆ => ?_)
  obtain ⟨verbose, hverbose⟩ : ∃ b, (w.withReport l d w.journal).isTrue
      (w.ownValue (.policy p) Policy.verboseField) = .ok b := World.isTrue_of_no_node hp.verbose
  refine .bind (hS.look h₆ hverbose fun σ₇ h₇ => ?_)
  cases verbose with
  | false =>
    exact .pure (hQ l _ σ₇ hl hE (hturns.trans (.of_asked h₇)) h₇.world)
  | true =>
    refine .bind (hS.step h₇ rfl fun σ₈ h₈ => .pure ?_)
    obtain ⟨j, hj⟩ := (w.withReport l d w.journal).log_eq .warning .guard
      (w.attempt t node visitor).skipped
    have hsaid : σ₈.world =
        (w.withReport l d w.journal).say .warning .guard (w.attempt t node visitor).skipped :=
      h₈.world
    refine hQ l j σ₈ hl hE (hturns.trans (.of_asked h₈)) ?_
    rw [hsaid, World.say, hj]
    rfl

/-- What comes of an attempt that a policy of a kind is asked about. -/
theorem handle_yields {m : PolicyBody} (hm : m = .record ∨ m = .reject)
    (hS : (alone (body F t)).Calm F t R) (hlists : Recorder.SparesLists R)
    (hhandle : ∀ (c : Call κ) σ, c.isHandle = true → R c σ) (hw : σ.world = w)
    (hopen : w.Unhidden (.policy p)) (hbody : (w.policies.get p).body = m)
    (hfiles : m = .record → w.Files E p) {Q : Outcome → Moment ε κ → Prop}
    (hrecord : m = .record → ∀ (l : Ref .list) (j : List LogRecord) (σ' : Moment ε κ),
      w.ownValue (.policy p) Policy.reportsField = .list l → ¬ E l → σ.Turns σ' →
      σ'.world = w.withReport l (Reports.report (w.attempt t node visitor)) j →
      Q (.ok .none) σ')
    (hreject : m = .reject → ∀ σ' : Moment ε κ, σ.Turns σ' → σ'.world = w →
      Q (.error (.foreignTraversal (w.attempt t node visitor) .rejected)) σ') :
    (alone (body F t)).Yields R σ (send (.policy p) .handle [node, visitor]) Q := by
  have hcalled : σ.Turns (σ.calling (.send (.policy p) .handle [node, visitor])) :=
    .of_call rfl rfl
  have h₀ : (σ.calling (.send (.policy p) .handle [node, visitor])).Asked w
      (σ.calling (.send (.policy p) .handle [node, visitor])) := ⟨hw, [], by simp⟩
  have hunderstands : w.understands (.policy p) .handle = true := rfl
  have hproblem : w.argumentProblem? (.policy p) .handle 2 = none := rfl
  refine .invoke rfl (hhandle _ _ rfl) ?_
  refine hS.delivered h₀ hunderstands (hopen _ (by simp)) hproblem fun σ₁ h₁ => ?_
  refine .bind (hS.read h₁ fun σ₂ h₂ => ?_)
  have h₂' : σ.Turns σ₂ := hcalled.trans (.of_asked h₂)
  rcases hm with rfl | rfl
  · simp only [hbody]
    refine record_yields hS hlists h₂.world (hfiles rfl) fun l j σ' hl hE hσ hw' => ?_
    exact hrecord rfl l j _ hl hE (h₂'.trans hσ) hw'
  · simp only [hbody]
    refine .bind (hS.read h₂ fun σ₃ h₃ => .throw ?_)
    exact hreject rfl _ (hcalled.trans (.of_asked h₃.returned)) h₃.world

/-- **An attempt at a guarded node is answered**: the policy of the guard that answers for the node
refuses or writes one report, and nothing else happens. -/
theorem attempt_yields {m : PolicyBody} (hm : m = .record ∨ m = .reject)
    (hS : (alone (body F t)).Calm F t R) (hlists : Recorder.SparesLists R)
    (hhandle : ∀ (c : Call κ) σ, c.isHandle = true → R c σ) {N : Ref .node → Prop}
    (hpoliced : σ.world.Policed m E N) {r : Ref .node} (hr : N r)
    (hguarded : σ.world.isGuarded (.node r) = true)
    (hvisitor : σ.world.shownGuard? visitor = none) :
    (alone (body F t)).Yields R σ (body F t (.send (.node r) .accept [visitor])) fun o σ' =>
      Answered t r visitor σ.world m o σ'.world ∧ World.Beside E σ.world σ'.world ∧
        σ'.world.foreign = σ.world.foreign ∧ σ.Turns σ' := by
  obtain ⟨hstored, own, hmarked⟩ := hpoliced.known r hr
  obtain ⟨-, hnone⟩ | ⟨x, g, inner, haccept, htag, -, hcontent, -, hg⟩ := hmarked.marks
  · simp [Setting.isGuarded_eq, hnone] at hguarded
  have hpolices := hpoliced.answers r hr g htag
  obtain ⟨p, hp, hopen, hbody, hfiles⟩ := hpolices.policy
  have h : σ.world.GuardedBy (.node r) g inner := ⟨⟨x, haccept, hcontent⟩, htag⟩
  have hsettled : σ.world.Settled visitor := fun g' hg' => by simp [hvisitor] at hg'
  refine hS.accept (Moment.Asked.refl σ) h (by simp) fun σ₁ h₁ => ?_
  refine hS.dispatch h₁ hsettled hg (World.isTrue_of_no_node hpolices.quiet)
    (fun hmay => absurd hmay (World.not_entitles_of_none hvisitor)) fun _ σ₂ h₂ => ?_
  rw [hp]
  -- what is logged about the visitor changes nothing that a policy looks at
  obtain ⟨j, hj⟩ := σ.world.noticed_eq t g (.node r) visitor
  rw [hj] at h₂
  refine handle_yields hm hS hlists hhandle h₂.world hopen hbody
    (fun hrecord => (hfiles hrecord).frame (World.beside_journal E _ j).toFrame trivial)
    (fun hrecord l j' σ' hl hE hσ hw => ?_) (fun hreject σ' hσ hw => ?_)
  · subst hrecord
    have hw' : σ'.returned.world = σ.world.withReport l
        (Reports.report (σ.world.attempt t (.node r) visitor)) j' := hw
    rw [hw']
    exact ⟨.of_withReport htag hp hl (hpoliced.apart p · l hl) j',
      World.beside_withReport hE _ _, rfl, (Moment.Turns.of_asked h₂).trans hσ⟩
  · subst hreject
    have hw' : σ'.returned.world = { σ.world with journal := j } := hw
    rw [hw']
    exact ⟨.rejected fun _ => rfl, World.beside_journal E _ j, rfl,
      (Moment.Turns.of_asked h₂).trans hσ⟩

end Walk

end GuardedWalk

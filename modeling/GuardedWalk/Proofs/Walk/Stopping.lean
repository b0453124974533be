import GuardedWalk.Proofs.Walk.Attending

/-!
# Walks that stop at a failure

Whatever fails in the middle of a walk, a callback or something that others are asked, the walk ends
there: nobody hears of anything after that, and the failure reaches whoever has begun the walk. All
blocks give the token back on the way out, so that no walk is in flight then, and the session that
the walk has opened is closed. A further walk is like one that follows upon nothing.

## Main definitions

* `GuardedWalk.Cast.AtRest` — no walk of a walker is in flight.
* `GuardedWalk.World.Over` — a session is over.
* `GuardedWalk.Cast.OneSession` — a walk has opened one session at most.
* `GuardedWalk.Cast.failsAt` — what others are told or asked at one place in a walk fails.

## Main results

* `GuardedWalk.Cast.tell_failsAt` — what is told up to a failure at one place.
* `GuardedWalk.Cast.SetsOut.ends` — how a walk ends that has begun.
* `GuardedWalk.Cast.walk_stops` — how a walk ends in which something fails.
-/

set_option autoImplicit false

namespace GuardedWalk

variable {ε κ : Type}

namespace World

/-- A session is over: it says so, and shows no outline table. -/
structure Over (w : World ε) (s : Ref .session) : Prop where
  closed : w.member (.session s) Session.closedField = .ok (.value (.bool true))
  table : w.member (.session s) Session.tableField = .ok (.value .none)

/-- A session that has been closed is over. -/
theorem Over.of_close {w : World ε} {s : Ref .session} {a : Session}
    (h : w.sessions.get s = a.close) : w.Over s where
  closed := member_of_carried rfl (by simp [carried, own?, h, Session.close, Attributes.get?_set])
  table := by
    have hne : Session.tableField ≠ Session.closedField := by decide
    exact member_of_carried rfl
      (by simp [carried, own?, h, Session.close, Attributes.get?_set, hne])

end World

namespace Cast

variable {X : Cast} {F : Foreign ε κ} {D : Ref .list → Prop} {A : Agenda κ} {e : Event}
  {args : List Value} {w w' w₀ : World ε} {S S₀ : Surroundings ε κ}
  {verdict : List (Occasion κ) → Option Failure}

/-- No walk of a walker is in flight: the walker shows no session and no outline table, and no block
holds its token. -/
structure AtRest (X : Cast) (w : World ε) : Prop where
  session : w.member (.walker X.walker) "session" = .ok (.value .none)
  walking : w.member (.walker X.walker) "is_walking" = .ok (.value (.bool false))
  table : w.member (.walker X.walker) "current_table" = .ok (.value .none)
  depth : w.member (.token X.token) "depth" = .ok (.value (.int 0))

/-- A walker whose token has been given back is at rest. -/
theorem Assembled.atRest (ha : X.Assembled w) (hr : Released w X) : X.AtRest w := by
  have hown := ha.ownership
  obtain ⟨hsession, hdepth⟩ := hr
  simp only [World.carried, Walker.ownershipField, Token.sessionField, Token.depthField]
    at hown hsession hdepth
  constructor <;>
    simp [World.member, World.extent, World.memberWithin, World.getter?, World.walkerGetter?,
      World.tokenGetter?, World.workOut, World.reached, World.memberHere, Walker.ownershipField,
      Token.sessionField, Token.depthField, World.Member.plain, bind, Except.bind, pure,
      Except.pure, hown, hsession, hdepth]

/-! ## The session of a walk -/

/-- The walk has not begun, or its session is in flight. -/
def OneSession (X : Cast) (w₀ w : World ε) : Prop :=
  w.sessions.cells.size = w₀.sessions.cells.size ∧
      w.ownValue (.token X.token) Token.sessionField = .none ∨
    w.ownValue (.token X.token) Token.sessionField = .session w₀.sessions.next

theorem OneSession.onward (h : X.OneSession w₀ w) (hw : w.Onward X.token w') :
    X.OneSession w₀ w' := by
  rcases h with ⟨hsize, hnone⟩ | hsome <;> rcases hw.session with ⟨hsize', hsame⟩ | ⟨-, hnone', hs⟩
  · exact .inl ⟨hsize'.trans hsize, hsame.trans hnone⟩
  · refine .inr (hs.trans ?_)
    rw [Store.next, Store.next, hsize]
  · exact .inr (hsame.trans hsome)
  · simp [hsome] at hnone'

theorem OneSession.peaceful (h : X.OneSession w₀ w) (hw : World.Peaceful X D w w') :
    X.OneSession w₀ w' := by
  have hfield := hw.carried (.token X.token) (.inr rfl) Token.sessionField (by decide)
  simp only [OneSession, World.ownValue_eq, Attributes.value, hw.sameSessions, hfield] at h ⊢
  exact h

/-- While a walk goes on, the session in flight is the one that it has opened. -/
theorem OneSession.eq {pins : List Pin} {s : Ref .session} {n : Nat} (h : X.OneSession w₀ w)
    (hw : Scene X false D A pins (.owned s n) w) : s = w₀.sessions.next := by
  have hs : w.ownValue (.token X.token) Token.sessionField = .session s :=
    Setting.ownValue_session (Z := X.attended D A (fun _ _ => True) fun _ => none) hw
  rcases h with ⟨-, hnone⟩ | hsome
  · simp [hs] at hnone
  · exact Value.session.inj (hs.symm.trans hsome)

theorem OneSession.install {pins : List Pin} {s : Ref .session} {n : Nat} {v : Value}
    (h : X.OneSession w₀ w) (hw : Scene X false D A pins (.owned s n) w) (hv : w.Open v)
    (obstruct : Obstruction ε) :
    X.OneSession w₀ (World.install obstruct w X.guard v).2 := by
  obtain ⟨b, w', hrun, hstill, -⟩ := World.install_run obstruct hv hw.assembled.guardOpen
  have hs : w.ownValue (.token X.token) Token.sessionField = .session s :=
    Setting.ownValue_session (Z := X.attended D A (fun _ _ => True) fun _ => none) hw
  have hfield := hstill.tokens X.token Token.sessionField (by decide)
  obtain rfl := h.eq hw
  rw [hrun]
  refine .inr ?_
  rw [World.ownValue_eq, Attributes.value, hfield, ← Attributes.value, ← World.ownValue_eq, hs]

/-! ## The end of a walk -/

/-- A walk is over: its token has been given back, and its session is closed. -/
def IsOver (X : Cast) (s : Ref .session) (w : World ε) : Prop :=
  Released w X ∧ ∃ a : Session, w.sessions.get s = a.close

theorem released_frame (hr : Released w X) (hf : World.Frame X.Intact w w') : Released w' X where
  session := (hf.carried (.token X.token) (.inr rfl) _ (by decide)).trans hr.session
  depth := (hf.carried (.token X.token) (.inr rfl) _ (by decide)).trans hr.depth

/-- The outermost block of a walk gives the token back and closes the session. -/
theorem Attended.closes (hS : X.Attended F D verdict S) (w₀ : World ε) :
    (X.attended D A (fun w _ => X.OneSession w₀ w) verdict).Closes S [] .idle
      ((X.attended D A (fun w _ => X.IsOver w₀.sessions.next w) verdict).Going [] .idle) where
  released p s L σ hg := by
    have hpeace : ∀ (w w' : World ε) (_ : List (Occasion κ)), World.Peaceful X D w w' →
        X.IsOver w₀.sessions.next w → X.IsOver w₀.sessions.next w' := by
      rintro w w' - hw ⟨hr, a, ha⟩
      exact ⟨released_frame hr hw.toFrame, a, by rw [hw.sameSessions, ha]⟩
    obtain rfl := hg.inv.eq hg.scene
    refine Setting.Going.release_outer (I := fun w _ => Released w X)
      (J := fun w _ => X.IsOver w₀.sessions.next w) hg
      (hS.bears fun w w' _ hw hi => hi.peaceful hw)
      (hS.bears fun w w' _ hw hi => released_frame hi hw.toFrame) (hS.bears hpeace)
      (fun w w' _ _ hr _ _ => hr)
      (fun w _ _ hi => ⟨⟨hi.session, hi.depth⟩, w.sessions.get w₀.sessions.next, ?_⟩)
      (fun w j hi => ⟨⟨hi.1.session, hi.1.depth⟩, hi.2⟩) fun v σ' hg' => ⟨⟨v, rfl⟩, hg'.unpin⟩
    rw [Store.get_modify, if_pos rfl]
  returned L σ hg := hg.returned

/-- **How a walk ends that has begun**: it has taken its course, no walk is in flight, and the
session that it has opened is over. A further walk can set out. -/
theorem SetsOut.ends (h : X.SetsOut F D e args A w) (hS : X.Attended F D verdict S)
    (hbegins : X.timeout.outlastsTime = false) :
    ∃ (r : Outcome) (σ : Moment ε κ),
      S.Runs (Walk.send (.walker X.walker) (.entry e) args) (.start w) r σ ∧
      X.occasions σ.calls = (X.course A verdict).1 ∧ failure? r = (X.course A verdict).2 ∧
      X.AtRest σ.world ∧ σ.world.Over w.sessions.next ∧ X.SetsOut F D e args A σ.world := by
  have hZ : (X.attended D A (fun w' _ => X.OneSession w w') verdict).Hosts F S :=
    hS.hosts h.coded (fun _ _ _ hw hi => hi.peaceful hw) (fun _ _ _ _ hi => hi)
      (fun _ _ _ hw hi => hi.onward hw) fun _ _ _ _ _ _ hw hv hi => hi.install hw hv F.obstruct
  have hidle : X.OneSession w w := by
    obtain ⟨x, hx, -, ho⟩ := h.idle.shows
    exact .inl ⟨rfl, by rw [hx.session, show x.owner = none from ho]; rfl⟩
  obtain ⟨source, inner, hwhole⟩ := h.whole
  obtain ⟨r, σ, hruns, -, hg, hr⟩ := Setting.Tells.root (h.going hidle) hZ
    (Value.isTimeout_of_number h.assembled.timeout hbegins) (hS.closes w) h.announces hwhole
  rw [course_of_begins hbegins D fun w' _ => X.OneSession w w']
  obtain ⟨hreleased, a, hclosed⟩ := hg.inv
  exact ⟨r, σ, hruns, hg.heard, hr, hg.scene.assembled.atRest hreleased, .of_close hclosed,
    { h with assembled := hg.scene.assembled, idle := hg.scene.held, fits := hg.scene.fits }⟩

/-! ## A failure at one place -/

/-- What others are told or asked at one place in a walk fails, and nothing else does. -/
def failsAt (k : Nat) (f : Failure) (L : List (Occasion κ)) : Option Failure :=
  if L.length = k + 1 then some f else none

/-- What is told up to a failure at one place. -/
theorem tell_failsAt (inv : World ε → List (Occasion κ) → Prop) {k : Nat} (f : Failure)
    (told L : List (Occasion κ)) (hL : (L.filter Occasion.isCall).length ≤ k) :
    (((X.attended D A inv (failsAt k f)).tell L told).1.filter Occasion.isCall,
        ((X.attended D A inv (failsAt k f)).tell L told).2) =
      (((L ++ told).filter Occasion.isCall).take (k + 1),
        if k < ((L ++ told).filter Occasion.isCall).length then some f else none) := by
  induction told generalizing L with
  | nil =>
    rw [List.append_nil, List.take_of_length_le (by omega), if_neg (by omega)]
    rfl
  | cons x rest ih =>
    have hsplit : L ++ x :: rest = L ++ [x] ++ rest := by simp
    have hfilter : (L ++ [x]).filter Occasion.isCall =
        L.filter Occasion.isCall ++ [x].filter Occasion.isCall := List.filter_append ..
    rw [hsplit]
    cases hx : x.isCall with
    | false =>
      have hsilent : (X.attended D A inv (failsAt k f)).fails L x = none := by
        simp [Setting.fails, hx]
      simp only [Setting.tell, hsilent]
      exact ih _ (by simpa [hfilter, hx] using hL)
    | true =>
      have hone : [x].filter Occasion.isCall = [x] := by simp [hx]
      have hfails : (X.attended D A inv (failsAt k f)).fails L x =
          if (L.filter Occasion.isCall).length = k then some f else none := by
        simp [Setting.fails, hx, attended, failsAt, hfilter, hone]
      by_cases hk : (L.filter Occasion.isCall).length = k
      · rw [if_pos hk] at hfails
        have hlen : ((L ++ [x]).filter Occasion.isCall).length = k + 1 := by
          simp [hfilter, hone, hk]
        simp only [Setting.tell, hfails]
        rw [List.filter_append (L ++ [x]), List.take_append_of_le_length (by omega),
          List.take_of_length_le (by omega), if_pos (by rw [List.length_append]; omega)]
      · rw [if_neg hk] at hfails
        simp only [Setting.tell, hfails]
        refine ih _ ?_
        rw [hfilter, hone, List.length_append, List.length_singleton]
        omega

/-- The course of a walk in which something fails at one place. -/
theorem course_failsAt (hbegins : X.timeout.outlastsTime = false) {k : Nat} (f : Failure) :
    X.course A (failsAt k f) = (((A.occasions X).filter Occasion.isCall).take (k + 1),
      if k < ((A.occasions X).filter Occasion.isCall).length then some f else none) := by
  rw [course_of_begins hbegins (fun _ => True) fun (_ : World Unit) _ => True]
  exact tell_failsAt _ f _ [] (by simp)

/-- **A walk stops at a failure.** If one of those who are told or asked something fails, with
whatever failure, and the others do not, they all hear of what they would have heard of up to that
place, and of nothing else; the walk ends with that very failure. No walk is in flight then, and the
session of the walk is closed. A further walk through the same agenda lets others hear of all that
they would have heard of at first. -/
theorem walk_stops (h : X.SetsOut F D e args A w)
    (hS₀ : X.Attended F D (fun _ => none) S₀) :
    ∃ (r₀ : Outcome) (σ₀ : Moment ε κ),
      S₀.Runs (Walk.send (.walker X.walker) (.entry e) args) (.start w) r₀ σ₀ ∧
      ∀ k < (X.occasions σ₀.calls).length, ∀ (f : Failure) (S : Surroundings ε κ),
        X.Attended F D (failsAt k f) S → ∃ σ : Moment ε κ,
          S.Runs (Walk.send (.walker X.walker) (.entry e) args) (.start w) (.error f : Outcome) σ ∧
          X.occasions σ.calls = (X.occasions σ₀.calls).take (k + 1) ∧
          X.AtRest σ.world ∧ σ.world.Over w.sessions.next ∧
          ∀ S' : Surroundings ε κ, X.Attended F D (fun _ => none) S' →
            ∃ (r' : Outcome) (σ' : Moment ε κ),
              S'.Runs (Walk.send (.walker X.walker) (.entry e) args) (.start σ.world) r' σ' ∧
              X.occasions σ'.calls = X.occasions σ₀.calls ∧ failure? r' = failure? r₀ := by
  obtain ⟨r₀, σ₀, hruns₀, hheard₀, hend₀⟩ := h.walk hS₀
  refine ⟨r₀, σ₀, hruns₀, fun k hk f S hS => ?_⟩
  cases hbegins : X.timeout.outlastsTime with
  | true =>
    -- the walk cannot begin, so nobody hears of anything
    rw [hheard₀, course_quiet, if_pos hbegins] at hk
    cases hk
  | false =>
    have hfull : X.occasions σ₀.calls = (A.occasions X).filter Occasion.isCall := by
      rw [hheard₀, course_quiet, if_neg (by simp [hbegins])]
    obtain ⟨r, σ, hruns, hheard, hend, hrest, hover, hagain⟩ := h.ends hS hbegins
    rw [course_failsAt hbegins, ← hfull, if_pos hk] at hheard hend
    obtain rfl : r = .error f := by
      cases r with
      | ok v => cases hend
      | error g => exact congrArg Except.error (Option.some.inj hend)
    refine ⟨σ, hruns, hheard, hrest, hover, fun S' hS' => ?_⟩
    obtain ⟨r', σ', hruns', hheard', hend'⟩ := hagain.walk hS'
    exact ⟨r', σ', hruns', hheard'.trans hheard₀.symm, hend'.trans hend₀.symm⟩

open Bearer in
/-- The traversal of a node is interrupted: the observer has heard that the event begins, and does
not hear that it ends, until the node is walked over again. -/
theorem walk_stops_at_interrupt :
    ∃ (r' : Outcome) (σ σ' : Moment Unit Unit),
      (cast.quietly code (failsAt 1 (.raised ⟨0⟩))).Runs
        (Walk.send (.walker cast.walker) (.entry .feature) [.node ⟨0⟩]) (.start world)
        (.error (.raised ⟨0⟩) : Outcome) σ ∧
      cast.occasions σ.calls = [.told ⟨0⟩ (.before .feature [.node ⟨0⟩]), .asked ()] ∧
      cast.AtRest σ.world ∧ σ.world.Over world.sessions.next ∧
      (cast.quietly code fun _ => none).Runs
        (Walk.send (.walker cast.walker) (.entry .feature) [.node ⟨0⟩]) (.start σ.world) r' σ' ∧
      cast.occasions σ'.calls =
        [.told ⟨0⟩ (.before .feature [.node ⟨0⟩]), .asked (), .told ⟨0⟩ .after] := by
  have quiet := cast.attended_quietly code (fun _ => True) fun _ => none
  obtain ⟨r₀, σ₀, hruns₀, hstops⟩ := walk_stops setsOut quiet
  obtain ⟨r, σ₁, hruns, hheard, -⟩ := setsOut.walk quiet
  obtain ⟨rfl, rfl⟩ := hruns₀.unique hruns
  have hfull : cast.occasions σ₀.calls =
      [.told ⟨0⟩ (.before .feature [.node ⟨0⟩]), .asked (), .told ⟨0⟩ .after] :=
    hheard.trans (congrArg Prod.fst (course_quiet cast agenda))
  obtain ⟨σ, hruns, hcut, hrest, hover, hagain⟩ :=
    hstops 1 (by simp [hfull]) (.raised ⟨0⟩) _ (cast.attended_quietly code (fun _ => True) _)
  obtain ⟨r', σ', hruns', hheard', -⟩ := hagain _ quiet
  exact ⟨r', σ, σ', hruns, by rw [hcut, hfull]; rfl, hrest, hover, hruns', hheard'.trans hfull⟩

end Cast

end GuardedWalk

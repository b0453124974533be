import GuardedWalk.Proofs.Table.Turns
import GuardedWalk.Proofs.Walk.Scene

/-!
# The methods of a walker keep the token in order

Each step of each method of a walker and of its token is a turn of the thread on which it runs. An
entry leaves its thread inside of as many blocks as before, whatever foreign code does meanwhile and
however it ends, and the block of an outline table writes the table down before anything else.

## Main results

* `GuardedWalk.Desk.sound_acquire`, `sound_release` — the token is got and given back.
* `GuardedWalk.Desk.sound_visit`, `sound_broadcast` — what an entry does with the token.
* `GuardedWalk.Desk.sound_enterTable` — an outline table is written down.
* `GuardedWalk.Desk.sound_body` — whatever methods call of one another is sound.
-/

set_option autoImplicit false

namespace GuardedWalk

open Ownership (View Shows RunsOn Aside Contends Enters)

variable {ε κ : Type}

namespace World

/-- What does not concern any walker, token or session. -/
structure Aloof (w w' : World ε) : Prop where
  walkers : w'.walkers = w.walkers
  tokens : w'.tokens = w.tokens
  sessions : w'.sessions = w.sessions
  conditions : w'.conditions = w.conditions
  rows : w.tuples.Grows id w'.tuples

theorem Aloof.refl (w : World ε) : Aloof w w := ⟨rfl, rfl, rfl, rfl, .refl _ _⟩

theorem aloof_storeTuple (w : World ε) (items : List Value) :
    Aloof w (w.storeTuple items).2 := ⟨rfl, rfl, rfl, rfl, Store.grows_add ..⟩

theorem aloof_log (w : World ε) (severity : Severity) (channel : Channel)
    (text : Except Failure String) : Aloof w (w.log severity channel text).2 := by
  unfold log
  split
  · split <;> exact ⟨rfl, rfl, rfl, rfl, .refl _ _⟩
  · exact .refl w

theorem aloof_reveal (w : World ε) (v : Value) (m : Member) : Aloof w (w.reveal v m).2 := by
  cases m with
  | value | function => exact .refl w
  | number x => cases x <;> exact ⟨rfl, rfl, rfl, rfl, .refl _ _⟩
  | bound | listing => exact ⟨rfl, rfl, rfl, rfl, .refl _ _⟩
  | row items => exact aloof_storeTuple w items

theorem aloof_read (w : World ε) (v : Value) (name : String) :
    Aloof w ((Act.read v name).run w).2 := by
  rw [Act.read, Act.run_bind, Act.run_look]
  cases w.member v name with
  | error f => exact .refl w
  | ok m => exact aloof_reveal w v m

end World

namespace Desk

variable {D : Desk ε κ} {n : Nat} {w w' since : World ε} {x x' : View} {g : Phase} {α : Type}

/-! ## Steps that do not concern the token -/

theorem Beside.of_aloof (h : w.Aloof w') : D.Beside w w' where
  walker name _ := by simp [World.carried, World.own?, h.walkers]
  token name _ := by simp [World.carried, World.own?, h.tokens]
  session r _ name _ := by simp [World.carried, World.own?, h.sessions]
  unhidden r _ hr m hm := by
    rw [World.carried, World.own?, h.sessions]
    exact hr m hm
  sessions := Nat.le_of_eq (by rw [h.sessions])
  rows := h.rows

/-- A step that does not concern the token. -/
theorem Sound.quiet {f : World ε → Except Failure α × World ε}
    {Q : World ε → Phase → Except Failure α → Prop} (hu : ∀ w, World.Aloof w (f w).2)
    (h : ∀ w x w', since.tuples.Grows id w.tuples → D.Standing w x → g.Fits n w x →
      (f w).2.tuples.Grows id w'.tuples → Q w' g (f w).1) :
    D.SoundRoutine n (Routine.atomically f) since g Q :=
  Sound.atomically fun w x hw hs hf =>
    ⟨_, g, .beside hs (.of_aloof (hu w)), fun w' hw' => h w x w' hw hs hf hw'⟩

/-- A look at the world. -/
theorem Sound.examine {f : World ε → Except Failure α}
    {Q : World ε → Phase → Except Failure α → Prop}
    (h : ∀ w x w', since.tuples.Grows id w.tuples → D.Standing w x → g.Fits n w x →
      w.tuples.Grows id w'.tuples → Q w' g (f w)) :
    D.SoundRoutine n (Routine.examine f) since g Q :=
  Sound.quiet (fun w => .refl w) h

theorem Sound.read {f : World ε → α} {Q : World ε → Phase → Except Failure α → Prop}
    (h : ∀ w x w', since.tuples.Grows id w.tuples → D.Standing w x → g.Fits n w x →
      w.tuples.Grows id w'.tuples → Q w' g (.ok (f w))) :
    D.SoundRoutine n (Routine.read f) since g Q :=
  Sound.quiet (fun w => .refl w) h

/-! ## Steps on the token -/

/-- What a step on the token leaves of the walker. -/
theorem Standing.aside (hs : D.Standing w x) (ha : Aside D.token w w') (hx : Shows w' D.token x')
    (hc : x'.condition = x.condition) (ht : x'.timeout = x.timeout)
    (ho : ∀ r u, x'.owner = some (r, u) → x.owner = some (r, u) ∨ w'.Unhidden (.session r)) :
    D.Standing w' x' where
  shows := hx
  condition := hc.trans hs.condition
  timeout := ht.trans hs.timeout
  ownership := ((Scene.mild_aside ha).carried _ rfl _ (by decide)).trans hs.ownership
  keeps := ha.keeps _ hs.keeps
  walkerOpen := World.unhidden_of_carried ((Scene.mild_aside ha).carried _ rfl) hs.walkerOpen
  tokenOpen m hm := by
    rw [ha.token m.name (Scene.name_not_mem_status m)]
    exact hs.tokenOpen m hm
  flight r u hr := by
    rcases ho r u hr with hold | hnew
    · intro m hm
      rw [World.carried, World.own?, ha.sessions r (hs.shows.runs r u hold).stored]
      exact hs.flight r u hold m hm
    · exact hnew

theorem Passes.aside (ha : Aside D.token w w') : Passes w w' where
  rows := (Scene.mild_aside ha).tuples
  sessions := ha.size
  unhidden r hr hu m hm := by
    rw [World.carried, World.own?, ha.sessions r hr]
    exact hu m hm

/-- What a session says about outline tables stays in a step on the token. -/
theorem Standing.tableIn_aside (hs : D.Standing w x) (ha : Aside D.token w w') (r : Ref .session)
    (u : Thread) (hx : x.owner = some (r, u)) : w'.tableIn r = w.tableIn r := by
  rw [World.tableIn, World.carried, World.own?, ha.sessions r (hs.shows.runs r u hx).stored]
  rfl

/-- Where a thread stands after an attempt to get the token. -/
def attempted (d : Nat) : Except Failure Entry → Phase
  | .ok .nested | .ok .opened => .free (d + 1)
  | .ok (.waits _) | .error _ => .free d

/-- A look at the token is a turn of a thread outside of all blocks. -/
theorem Turn.contends {t : Thread} {gen : Int} {limit : Limit} {r : Except Failure Entry}
    (ht : t = D.thread n) (hs : D.Standing w x) (hc : Contends t gen limit w x r w' x')
    (hx : Shows w' D.token x') (ha : Aside D.token w w') :
    D.Turn n w x (.free 0) w' x' (attempted 0 r) := by
  subst ht
  obtain ⟨hcond, -, htime⟩ := hc.fixed
  cases hc with
  | opens hown hadd =>
    have hsession : w'.carried (.session w.sessions.next) =
        (Session.opened (D.thread n).number (.text (D.thread n).name) .none).attributes := by
      simp [World.carried, World.own?, hadd, Store.get_add]
    refine ⟨hs.aside ha hx hcond htime fun r u hr => .inr ?_, .aside ha,
      .opens hown rfl rfl (Nat.le_refl _) ?_⟩
    · obtain ⟨rfl, -⟩ := Prod.mk.inj (Option.some.inj hr)
      intro m _
      rw [hsession]
      exact Scene.session_unhidden m
    · rw [World.tableIn, hsession]
      rfl
  | cancelled | late | tooLong | sleeps =>
    exact ⟨hs.aside ha hx hcond htime fun r u hr => .inl hr, .aside ha,
      .stays ⟨rfl, rfl, hs.tableIn_aside ha⟩⟩

/-- An entry is a turn. -/
theorem Turn.enters {d : Nat} {r : Except Failure Entry} (hs : D.Standing w x)
    (hf : (Phase.free d).Fits n w x) (he : Enters (D.thread n) w x r w' x')
    (hx : Shows w' D.token x') (ha : Aside D.token w w') :
    D.Turn n w x (.free d) w' x' (attempted d r) ∧ (∀ ticket, r = .ok (.waits ticket) → d = 0 ∧
      ∃ gen limit, ticket = ⟨.int gen, limit, D.condition⟩ ∧
        ∃ number, D.timeout.number? = some number) := by
  obtain ⟨hcond, -, htime⟩ := he.fixed
  -- whoever does not own the token is outside of all blocks
  have hout : (∀ r u, x.owner = some (r, u) → u.id ≠ n) → d = 0 := by
    intro hne
    refine Nat.eq_zero_of_not_pos fun hd => ?_
    obtain ⟨r, u, hr, hu, -⟩ := hf.holds hd
    exact hne r u hr hu
  cases he with
  | @nests r u _ hown hu hsess =>
    have hd : d ≠ 0 := by
      rintro rfl
      exact hf.aside rfl r u hown hu
    obtain ⟨d, rfl⟩ := Nat.exists_eq_succ_of_ne_zero hd
    exact ⟨⟨hs.aside ha hx hcond htime fun r u hr => .inl hr, .aside ha,
      .nests rfl rfl (hs.tableIn_aside ha)⟩, by simp⟩
  | untimed hown hf' =>
    exact ⟨⟨hs.aside ha hx hcond htime fun r u hr => .inl hr, .aside ha,
      .stays ⟨rfl, rfl, hs.tableIn_aside ha⟩⟩, by simp⟩
  | @looks limit r w' x' hown hl hc =>
    obtain rfl := hout hown
    refine ⟨.contends rfl hs hc hx ha, fun ticket hticket => ⟨rfl, ?_⟩⟩
    have hnumber := Ownership.number_of_ofOwnership hl
    rw [hs.timeout] at hnumber
    cases hc with
    | sleeps hsome hg hlate hsame =>
      obtain rfl := Entry.waits.inj (Except.ok.inj hticket)
      exact ⟨_, _, by rw [hs.condition], hnumber⟩
    | _ => simp at hticket

/-- Another look at the token is a turn. -/
theorem Turn.rechecks (n : Nat) (gen : Int) (limit : Limit)
    (ht : ∃ number, D.timeout.number? = some number) (hs : D.Standing w x) :
    ∃ r w' x', (Ownership.recheck (D.thread n) D.token ⟨.int gen, limit, D.condition⟩).run w =
        (r, w') ∧ D.Turn n w x (.free 0) w' x' (attempted 0 r) ∧
      ∀ ticket, r = .ok (.waits ticket) → ticket = ⟨.int gen, limit, D.condition⟩ := by
  obtain ⟨w₁, hrun, hx₁, ha₁, hsess, -⟩ :=
    Ownership.recheck_run (D.thread n) hs.shows (.int gen) limit
  obtain ⟨number, hnumber⟩ := ht
  obtain ⟨r, w', x', hrun', hc, hx', ha'⟩ := Ownership.contend_run (D.thread n) hx₁
    (n := number) (by rw [← hnumber, ← hs.timeout]) gen limit
  have hs₁ : D.Standing w₁ _ := hs.aside ha₁ hx₁ rfl rfl fun r u hr => .inl hr
  have hturn := Turn.contends (n := n) rfl hs₁ hc hx' ha'
  rw [hs.condition] at hrun
  -- to leave the wait changes neither the owner nor any session
  refine ⟨r, w', x', hrun.trans hrun', ⟨hturn.standing, .aside (ha₁.trans ha'),
    hturn.changes.since ⟨rfl, rfl, hs.tableIn_aside ha₁⟩ ha₁.size⟩, fun ticket hticket => ?_⟩
  cases hc with
  | sleeps hsome hg hlate hsame =>
    obtain rfl := Entry.waits.inj (Except.ok.inj hticket)
    rw [← hs.condition]
  | _ => simp at hticket

/-- The end of a block is a turn. -/
theorem Turn.releases {d : Nat} (hs : D.Standing w x) (hf : (Phase.free (d + 1)).Fits n w x) :
    ∃ r w' x' g', (Ownership.release D.token).run w = (.ok r, w') ∧
      D.Turn n w x (.free (d + 1)) w' x' g' ∧
      (r = none ∧ g' = .free d ∨ ∃ s, r = some (.session s) ∧ g' = .closing s ∧ d = 0) := by
  obtain ⟨s, u, hown, hu, hdepth⟩ := hf.holds (Nat.succ_pos d)
  simp only [Phase.blocks] at hdepth
  cases d with
  | zero =>
    obtain ⟨w', hrun, hx', ha, -, -⟩ := Ownership.release_outermost hs.shows (by omega)
    refine ⟨_, w', _, .closing s, hrun, ⟨hs.aside ha hx' rfl rfl (by simp), .aside ha,
      .shuts hown rfl⟩, .inr ⟨s, ?_, rfl, rfl⟩⟩
    rw [hown]
    rfl
  | succ d =>
    obtain ⟨w', hrun, hx', ha, -⟩ := Ownership.release_nested hs.shows (by omega)
    exact ⟨_, w', _, .free (d + 1), hrun,
      ⟨hs.aside ha hx' rfl rfl fun r u hr => .inl hr, .aside ha,
        .ends rfl rfl (hs.tableIn_aside ha)⟩, .inl ⟨rfl, rfl⟩⟩

/-- A cancellation is a turn of any thread. -/
theorem Turn.cancels (hs : D.Standing w x) :
    ∃ w' x', (Ownership.cancel D.token).run w = (.ok (), w') ∧ D.Turn n w x g w' x' g := by
  obtain ⟨w', hrun, hx', ha, -⟩ := Ownership.cancel_run hs.shows
  exact ⟨w', _, hrun, hs.aside ha hx' rfl rfl fun r u hr => .inl hr, .aside ha,
    .stays ⟨rfl, rfl, hs.tableIn_aside ha⟩⟩

/-! ## Steps on sessions -/

/-- A change of what a session says about its walk hides no method. -/
theorem unhidden_modifySession {w : World ε} (r : Ref .session) {r' : Ref .session}
    {f : Session → Session} (hf : Session.Amends f) (hu : w.Unhidden (.session r')) :
    World.Unhidden { w with sessions := w.sessions.modify r f } (.session r') := by
  intro m hm
  obtain ⟨ht, hc⟩ := Message.name_ne_tableField m
  rw [World.get?_carried_modifySession w r r' hf ht hc]
  exact hu m hm

/-- It leaves the walker and its token as they are. -/
theorem Standing.modifySession (hs : D.Standing w x) (r : Ref .session) {f : Session → Session}
    (hf : Session.Amends f) :
    D.Standing { w with sessions := w.sessions.modify r f } x ∧
      Passes w { w with sessions := w.sessions.modify r f } := by
  refine ⟨?_, ⟨.refl _ _, Store.size_modify _ _ _, fun r' _ => unhidden_modifySession r hf⟩⟩
  exact
    { shows :=
        { hs.shows with
          runs := fun r' u hx => by
            obtain ⟨hnumber, hname, hstored⟩ := hs.shows.runs r' u hx
            have hg : ∀ name, name ≠ Session.tableField → name ≠ Session.closedField → _ :=
              fun _ => World.get?_carried_modifySession w r r' hf
            exact ⟨(hg _ (by decide) (by decide)).trans hnumber,
              (hg _ (by decide) (by decide)).trans hname,
              Nat.lt_of_lt_of_le hstored (Store.size_modify _ _ _)⟩ }
      condition := hs.condition
      timeout := hs.timeout
      ownership := hs.ownership
      keeps := hs.keeps
      walkerOpen := hs.walkerOpen
      tokenOpen := hs.tokenOpen
      flight := fun r' u hx => unhidden_modifySession r hf (hs.flight r' u hx) }

/-- To close a session that is not in flight any more is a turn. -/
theorem Turn.closes {r : Ref .session} (hs : D.Standing w x) (hf : (Phase.closing r).Fits n w x) :
    D.Turn n w x (.closing r) { w with sessions := w.sessions.modify r Session.close } x
      (.free 0) := by
  obtain ⟨hs', hp⟩ := hs.modifySession r Session.amends_close
  refine ⟨hs', hp, .closes ⟨rfl, rfl, fun r' u hx => ?_⟩⟩
  have hne : r' ≠ r := by
    rintro rfl
    exact (hf.ended _ rfl).2.2 u hx
  rw [World.tableIn, World.carried_modifySession, if_neg hne]
  rfl

/-- To look up the session in flight is a turn, and there is one. -/
theorem Turn.aims {d : Nat} {table : Value} (hs : D.Standing w x)
    (hf : (Phase.due d table).Fits n w x) :
    ∃ r : Ref .session, (Act.read (.token D.token) "session").run w = (.ok (.session r), w) ∧
      D.Turn n w x (.due d table) w x (.aimed d table r) := by
  obtain ⟨r, u, hown, -, -⟩ := hf.holds (Nat.succ_pos d)
  refine ⟨r, Act.read_run ?_, hs, ⟨.refl _ _, Nat.le_refl _, fun _ _ h => h⟩,
    .aims hown ⟨rfl, rfl, fun _ _ _ => rfl⟩⟩
  have hr : w.ownValue (.token D.token) Token.sessionField = .session r :=
    hs.shows.session.trans (by rw [hown]; rfl)
  exact World.member_session_of_carried (World.get?_of_ownValue hr (by simp))

/-- To write an outline table down in the session in flight is a turn, and does not fail. -/
theorem Turn.writes (n d : Nat) (table : Value) (r : Ref .session) (obstruct : Obstruction ε)
    (hs : D.Standing w x) :
    ∃ w', (Act.assign obstruct (.session r) Session.tableField table).run w = (.ok (), w') ∧
      D.Turn n w x (.aimed d table r) w' x (.written d table) := by
  obtain ⟨hs', hp⟩ := hs.modifySession r (Session.amends_setTable table)
  refine ⟨_, Scene.assignTable_run obstruct w r table, hs', hp, .writes rfl rfl ?_⟩
  simp [World.tableIn, World.carried_setOwn (v := .session r) rfl, Attributes.get?_set]

/-! ## Messages -/

section Messages

open Walk

variable {v : Value} {m : Message} {args : List Value} {Q : World ε → Phase → Outcome → Prop}

/-- A message is answered by a method if nothing stands in its way. -/
theorem Sound.deliver (hm : m.needsNoObject = false)
    (hu : ∀ w : World ε, w.understands v m = true)
    (hc : ∀ w x, D.Standing w x → g.Fits n w x → (w.carried v).get? m.name = none)
    (h : ∀ w, since.tuples.Grows id w.tuples →
      D.SoundRoutine n (Walk.run D.foreign (D.thread n) v m args) w g Q) :
    D.SoundRoutine n (deliver D.foreign (D.thread n) v m args) since g Q := by
  refine .bind (.examine fun w x w' hw hs hf hw' => ?_)
  rw [World.member_of_understands (hu w) (hc w x hs hf), hm]
  exact h w' (hw.trans hw')

/-- A method runs if it is given as many arguments as it should; what it comes to otherwise is
asked for apart. -/
theorem Sound.run (hp : ∀ (w : World ε) f, w.argumentProblem? v m args.length = some f →
      ∀ w', Q w' g (.error f))
    (h : ∀ w, since.tuples.Grows id w.tuples →
      D.SoundRoutine n (answer D.foreign (D.thread n) v m args) w g Q) :
    D.SoundRoutine n (Walk.run D.foreign (D.thread n) v m args) since g Q := by
  refine .bind (.read fun w x w' hw hs hf hw' => ?_)
  cases hprob : w.argumentProblem? v m args.length with
  | some f => exact .throw fun w'' _ => hp w f hprob w''
  | none => exact h w' (hw.trans hw')

/-- A method calls another one and goes on. If the other one fails, then so does it, inside of as
many blocks as it goes on in. -/
theorem Sound.invokeThen {c : Call κ} {d : Nat} {P : Phase → Outcome → Prop}
    {rest : Value → Steps ε κ Value} (hc : D.answers c = true) (hserves : D.Serves since c g P)
    (hP : ∀ g' o, P g' o → g' = .free d)
    (h : ∀ v w, since.tuples.Grows id w.tuples →
      D.SoundRoutine n (rest v) w (.free d) fun _ g o => leaves d g o) :
    D.SoundRoutine n (Routine.invoke c >>= rest) since g fun _ g o => leaves d g o := by
  refine .bind (.invoke hc hserves fun g' o hg w hw => ?_)
  obtain rfl := hP g' o hg
  cases o with
  | error f => exact fun _ _ => rfl
  | ok v => exact h v w hw

/-- A message to the walker. -/
theorem Sound.toWalker (hm : m.needsNoObject = false) (ha : m ≠ .accept)
    (hu : ∀ w : World ε, w.understands (.walker D.walker) m = true)
    (hQ : ∀ w f, Q w g (.error f))
    (h : ∀ w, since.tuples.Grows id w.tuples →
      D.SoundRoutine n (answer D.foreign (D.thread n) (.walker D.walker) m args) w g Q) :
    D.SoundRoutine n (Walk.body D.foreign (D.thread n) (.send (.walker D.walker) m args)) since g
      Q :=
  .deliver hm hu (fun _ _ hs _ => hs.walkerOpen m ha) fun _ hw =>
    .run (fun _ f _ w' => hQ w' f) fun _ hw' => h _ (hw.trans hw')

/-- A message to the token that takes no arguments. -/
theorem Sound.toToken (hm : m.needsNoObject = false) (ha : m ≠ .accept)
    (hu : ∀ w : World ε, w.understands (.token D.token) m = true)
    (hp : ∀ w : World ε, w.argumentProblem? (.token D.token) m 0 = none)
    (h : ∀ w, since.tuples.Grows id w.tuples →
      D.SoundRoutine n (answer D.foreign (D.thread n) (.token D.token) m []) w g Q) :
    D.SoundRoutine n (Walk.body D.foreign (D.thread n) (.send (.token D.token) m [])) since g Q :=
  .deliver hm hu (fun _ _ hs _ => hs.tokenOpen m ha) fun _ hw =>
    .run (fun w f hf => by simp [hp w] at hf) fun _ hw' => h _ (hw.trans hw')

end Messages

/-! ## The token -/

section Token

open Walk

/-- After an attempt to get the token the thread is inside of a further block, waits, or has
failed. -/
theorem sound_settle {d : Nat} (e : Entry)
    (hw : ∀ ticket, e = .waits ticket → d = 0 ∧ ∃ gen limit,
      ticket = ⟨.int gen, limit, D.condition⟩ ∧ ∃ number, D.timeout.number? = some number) :
    D.SoundRoutine n (settle (D.thread n) D.token e) since (attempted d (.ok e))
      fun _ g o => begins d g o := by
  cases e with
  | nested => exact .read fun _ _ _ _ _ _ _ => rfl
  | opened =>
    refine .bind (.quiet (fun w => World.aloof_log w _ _ _) fun _ _ _ _ _ _ _ => ?_)
    exact .read fun _ _ _ _ _ _ _ => rfl
  | waits ticket =>
    obtain ⟨rfl, gen, limit, rfl, hnumber⟩ := hw ticket rfl
    exact .invoke (by simp [answers]) (.await gen limit hnumber) fun _ _ ho _ _ => ho

/-- The token is got, or the attempt fails. -/
theorem sound_acquire (d : Nat) :
    D.SoundRoutine n (acquire (D.thread n) D.token) since (.free d) fun _ g o => begins d g o := by
  refine .bind (.atomically fun w x hw hs hf => ?_)
  obtain ⟨r, w', x', hrun, he, hx, ha⟩ := Ownership.enter_run (D.thread n) hs.shows
  obtain ⟨hturn, hwait⟩ := Turn.enters hs hf he hx ha
  rw [hrun]
  refine ⟨x', _, hturn, fun w'' _ => ?_⟩
  cases r with
  | error f => exact fun _ _ => rfl
  | ok e => exact sound_settle e fun ticket ht => hwait ticket (by rw [ht])

/-- A thread that has waited looks at the token again. -/
theorem sound_awaitToken (gen : Int) (limit : Limit)
    (ht : ∃ number, D.timeout.number? = some number) :
    D.SoundRoutine n (awaitToken (D.thread n) D.token ⟨.int gen, limit, D.condition⟩) since
      (.free 0) fun _ g o => begins 0 g o := by
  refine .bind ⟨rfl, fun held w hw => ?_⟩
  refine .bind (.atomically fun w x hw hs hf => ?_)
  obtain ⟨r, w', x', hrun, hturn, hwait⟩ := Turn.rechecks n gen limit ht hs
  rw [hrun]
  refine ⟨x', _, hturn, fun w'' _ => ?_⟩
  cases r with
  | error f => exact fun _ _ => rfl
  | ok e =>
    exact sound_settle e fun ticket hticket => ⟨rfl, gen, limit, hwait ticket (by rw [hticket]), ht⟩

/-- The token is given back. -/
theorem sound_release (d : Nat) :
    D.SoundRoutine n (Walk.release D.token) since (.free (d + 1)) fun _ g o => leaves d g o := by
  refine .bind (.atomically fun w x hw hs hf => ?_)
  obtain ⟨r, w', x', g', hrun, hturn, hr⟩ := Turn.releases hs hf
  rw [hrun]
  refine ⟨x', g', hturn, fun w'' _ => ?_⟩
  rcases hr with ⟨rfl, rfl⟩ | ⟨s, rfl, rfl, rfl⟩
  · exact .pure fun _ _ => rfl
  · -- what is logged about a session that has been closed does not concern the token
    refine .invokeThen (by simp [answers]) (.close s) (fun _ _ hg => hg) fun _ w₁ _ => ?_
    refine .bind (.quiet (fun w => World.aloof_read w _ _) fun w x w₂ _ _ _ _ => ?_)
    split
    · refine .bind (.quiet (fun w => World.aloof_read w _ _) fun w x w₃ _ _ _ _ => ?_)
      split
      · refine .bind (.quiet (fun w => World.aloof_log w _ _ _) fun w x w₄ _ _ _ _ => ?_)
        split
        · exact .pure fun _ _ => rfl
        · exact fun _ _ => rfl
      · exact fun _ _ => rfl
    · exact fun _ _ => rfl

/-- Those who wait are woken to give up, and the token stays as it is otherwise. -/
theorem sound_cancelToken (d : Nat) :
    D.SoundRoutine n (answer D.foreign (D.thread n) (.token D.token) .cancel []) since (.free d)
      fun _ g o => leaves d g o := by
  refine .atomically fun w x _ hs _ => ?_
  obtain ⟨w', x', hrun, hturn⟩ := Turn.cancels (n := n) (g := .free d) hs
  have hreply : (Reply.reply D.foreign.obstruct (.token D.token) .cancel []).run w =
      (.ok .none, w') := by
    simp [-bind_pure_comp, Reply.reply, Act.run_bind, hrun]
  rw [hreply]
  exact ⟨x', .free d, hturn, fun _ _ => rfl⟩

end Token

/-! ## Blocks -/

section Blocks

open Walk

/-- Nodes and what notifies the observers are asked of foreign code. -/
theorem answers_others (v : Value) {m : Message} (args : List Value)
    (hm : m = .before ∨ m = .after ∨ m = .accept) :
    D.answers (.send v m args) = false := by
  rcases hm with rfl | rfl | rfl <;> cases v <;> simp [answers, Message.isPublic]

theorem tableTold?_isSome {v : Value} {e : Event} {args : List Value}
    (h : (Call.tableTold? (κ := κ) (.send v .before (.event e :: args)) (.ok .none)).isSome) :
    e = .outlineTable := by
  cases e <;> first
    | rfl
    | cases h

theorem after_error (d : Nat) (c : Call κ) (f : Failure) : after d c (.error f) = .free d := by
  simp [after, Call.tableTold?]

/-- All observers have been told of an event. -/
theorem after_before (d : Nat) (v u : Value) (e : Event) (args : List Value) :
    after d (.send v .before (.event e :: args) : Call κ) (.ok u) =
      if e = .outlineTable then .due (d - 1) (args.headD .none) else .free d := by
  cases e <;> rfl

/-- What the walker asks of foreign code in between leaves its thread where it is. -/
theorem Sound.asked {c : Call κ} {d : Nat} {Q : World ε → Phase → Outcome → Prop}
    (hc : D.answers c = false) (ht : ∀ o, c.tableTold? o = none)
    (h : ∀ o w, Q w (.free d) o) : D.SoundRoutine n (Routine.invoke c) since (.free d) Q := by
  refine .ask hc (.free (by simp [ht])) fun o w _ => ?_
  simp only [after, ht]
  exact h o w

/-- A failure in getting the token or giving it back is passed on. -/
theorem sound_unlessStop {f : Failure} {Q : World ε → Phase → Except Failure α → Prop}
    (hQ : ∀ w f, Q w g (.error f)) :
    D.SoundRoutine n (do throw (← unlessStop f)) since g Q := by
  refine .bind (.bind (.read fun _ _ _ _ _ _ _ => ?_))
  show D.SoundRoutine n (if _ then _ else _) _ _ _
  split <;> exact .pure fun _ _ => .throw fun w _ => hQ w _

/-- Nothing happens after the token has been given back. -/
theorem sound_conclude (d : Nat) (b : Except Failure Value) (o : Outcome) :
    D.SoundRoutine n (conclude b o) since (.free d) fun _ g o => leaves d g o := by
  rcases b with f | v <;> rcases o with f' | v'
  · simp only [conclude]
    split
    · exact .throw fun _ _ => rfl
    · exact sound_unlessStop fun _ _ => rfl
  · exact .throw fun _ _ => rfl
  · exact sound_unlessStop fun _ _ => rfl
  · exact .pure fun _ _ => rfl

/-- A block that holds the token leaves its thread inside of as many blocks as before, however it
ends. -/
theorem sound_hold {d : Nat} {block : Steps ε κ Value}
    (h : ∀ w, since.tuples.Grows id w.tuples →
      D.SoundRoutine n block w (.free (d + 1)) fun _ g _ => g = .free (d + 1)) :
    D.SoundRoutine n (hold (.token D.token) block) since (.free d) fun _ g o => leaves d g o := by
  -- the token is given back whatever the block comes to, unless it has not been got
  refine .bind (.invoke (by simp [answers]) (.hold d) fun g o ho w hw => ?_)
  obtain ⟨rfl, rfl⟩ := ho
  refine .bind (.bind (.outcome (.invoke (by simp [answers]) (.acquire d)
    fun g o ho w₁ hw₁ w₂ hw₂ => ?_)))
  cases o with
  | error f =>
    obtain rfl : g = .free d := ho
    exact sound_unlessStop fun _ _ _ _ => rfl
  | ok v =>
    obtain rfl : g = .free (d + 1) := ho
    refine .pure fun w₃ hw₃ => ?_
    refine .bind (.outcome (.mono (h w₃ (((hw.trans hw₁).trans hw₂).trans hw₃))
      fun w₄ g b hg w₅ hw₅ => ?_))
    subst hg
    refine .bind (.outcome (.invoke (by simp [answers]) (.release d) fun g o ho _ _ w₆ _ => ?_))
    obtain rfl : g = .free d := ho
    exact sound_conclude d b o

/-- The rows of an event's arguments stay as they were made. -/
theorem row_since {row : Ref .tuple} (hrow : row.index < since.tuples.cells.size)
    (hw : since.tuples.Grows id w.tuples) : w.row row = since.row row := by
  have := hw.2 row hrow
  simp only [id] at this
  simp [World.row, this]

/-- An entry that holds the token leaves its thread inside of as many blocks as before. -/
theorem sound_visit (d : Nat) (e : Event) {row : Ref .tuple} {block : Value}
    (hrow : row.index < since.tuples.cells.size) (hb : block = D.blockOf e row) :
    D.SoundRoutine n (visit (.walker D.walker) (.event e) (.tuple row) block) since (.free d)
      fun _ g o => leaves d g o := by
  refine .bind (.read fun w x w' hw hs _ hw' => ?_)
  rw [World.ownValue_of_carried hs.ownership]
  refine .bind (.mono (sound_hold fun w₁ hw₁ => ?_) fun w₂ g o hg => ?_)
  · have hrow₁ := Nat.lt_of_lt_of_le hrow ((hw.trans hw').trans hw₁).1
    exact .invoke (by simp [answers]) (.broadcast (d + 1) e hrow₁ hb fun _ => Nat.succ_pos d)
      fun g o hg _ _ => hg
  · obtain rfl : g = .free d := hg
    cases o with
    | error f => exact fun _ _ => rfl
    | ok v => exact .pure fun _ _ => rfl

/-- The block of an event, if it has one, leaves its thread inside of as many blocks as before; that
of an outline table begins when all observers have been told of the table. -/
theorem sound_block {d : Nat} {e : Event} {row : Ref .tuple} {block : Value}
    {rest : Steps ε κ Value} (hrow : row.index < since.tuples.cells.size)
    (hb : block = D.blockOf e row) (hd : e = .outlineTable → 0 < d)
    (h : ∀ w, since.tuples.Grows id w.tuples →
      D.SoundRoutine n rest w (.free d) fun _ g o => leaves d g o) :
    D.SoundRoutine n (if block ≠ .none then do
        let _ ← apply block []
        rest
      else rest) since
      (if e = .outlineTable then .due (d - 1) ((since.row row).headD .none) else .free d)
      fun _ g o => leaves d g o := by
  subst hb
  by_cases hc : e.isComposite
  · have hblock : D.blockOf e row = .block D.walker e row := by simp [blockOf, hc]
    simp only [hblock, ne_eq, reduceCtorEq, not_false_eq_true, if_true]
    by_cases he : e = .outlineTable
    · subst he
      obtain ⟨d, rfl⟩ := Nat.exists_eq_succ_of_ne_zero (Nat.ne_of_gt (hd rfl))
      exact .invokeThen (by simp [answers]) (.table d hrow rfl) (fun _ _ hg => hg) fun _ => h
    · rw [if_neg he]
      exact .invokeThen (by simp [answers]) (.block d hrow he) (fun _ _ hg => hg) fun _ => h
  · have he : e ≠ .outlineTable := by
      rintro rfl
      exact hc rfl
    simp only [blockOf, hc, if_neg he]
    exact h since (.refl _ _)

/-- What is broadcast leaves its thread inside of as many blocks as before. -/
theorem sound_broadcast (d : Nat) (e : Event) {row : Ref .tuple} {block : Value}
    (hrow : row.index < since.tuples.cells.size) (hb : block = D.blockOf e row)
    (hd : e = .outlineTable → 0 < d) :
    D.SoundRoutine n (broadcast (.walker D.walker) (.event e) (.tuple row) block) since (.free d)
      fun _ g o => leaves d g o := by
  refine .bind (.read fun w x w₁ hw _ _ hw₁ => ?_)
  refine .bind (.examine fun w' x' w₂ hw' _ _ hw₂ => ?_)
  split
  case h_2 => exact fun _ _ => rfl
  refine .bind (.examine fun w₀ x₀ w₃ hw₀ _ _ hw₃ => ?_)
  have hsince := ((hw.trans hw₁).trans (hw'.trans hw₂)).trans hw₀
  have hrow₀ := Nat.lt_of_lt_of_le hrow hsince.1
  have hspread : w₀.spread (.tuple row) = .ok (w₀.row row) := by
    simp [World.spread, World.hasElements, World.elementsOf, World.iterable, World.iterableWithin,
      World.elements, bind, Except.bind, pure, Except.pure]
  rw [hspread]
  refine .bind (.ask (answers_others _ _ (by simp)) (.free fun h => hd (tableTold?_isSome h))
    fun o w₄ hw₄ => ?_)
  cases o with
  | error f => exact fun _ _ => after_error ..
  | ok v =>
    rw [after_before, ← row_since hrow₀ (hw₃.trans hw₄)]
    refine sound_block (Nat.lt_of_lt_of_le hrow₀ (hw₃.trans hw₄).1) hb hd fun w₅ _ => ?_
    refine .bind (.read fun _ _ w₆ _ _ _ _ => ?_)
    refine .bind (.asked (answers_others _ _ (by simp)) (fun o => by cases o <;> rfl)
      fun o w₇ => ?_)
    cases o with
    | error f => exact fun _ _ => rfl
    | ok v => exact .pure fun _ _ => rfl

/-- An outline table is written down in the session in flight, without fail. -/
theorem sound_enterTable (d : Nat) (table : Value) :
    D.SoundRoutine n (enterTable D.foreign (.walker D.walker) table) since (.due d table)
      fun _ g o => g = .written d table ∧ o = .ok () := by
  refine .bind (.read fun w x w₁ _ hs _ _ => ?_)
  rw [World.ownValue_of_carried hs.ownership]
  refine .bind (.atomically fun w x _ hs hf => ?_)
  obtain ⟨r, hrun, hturn⟩ := Turn.aims hs hf
  rw [hrun]
  refine ⟨x, _, hturn, fun w₂ _ => .atomically fun w x _ hs hf => ?_⟩
  obtain ⟨w', hrun, hturn⟩ := Turn.writes n d table r D.foreign.obstruct hs
  rw [hrun]
  exact ⟨x, _, hturn, fun _ _ => ⟨rfl, rfl⟩⟩

/-- What the walker does between the notifications of an outline table: the table is written down
first, and only then asked for its rows. -/
theorem sound_runTable (d : Nat) (args : List Value) :
    D.SoundRoutine n (runBlock D.foreign (.walker D.walker) .outlineTable args) since
      (.due d (args.headD .none)) fun _ g o => leaves (d + 1) g o := by
  refine .bind (.mono (sound_enterTable d _) fun w₁ g r hg => ?_)
  obtain ⟨rfl, rfl⟩ := hg
  refine .bind (.ask (answers_others _ _ (by simp)) .rows fun o w₂ _ => ?_)
  cases o with
  | error f => exact fun _ _ => rfl
  | ok v => exact .pure fun _ _ => rfl

/-- What the walker does between the notifications of any other event. -/
theorem sound_runBlock (d : Nat) {e : Event} (he : e ≠ .outlineTable) (args : List Value) :
    D.SoundRoutine n (runBlock D.foreign (.walker D.walker) e args) since (.free d)
      fun _ g o => leaves d g o := by
  -- a step result is made of entries of its own, and every other event of the visit of a node
  have hpart : ∀ (since : World ε) (e : Event) (args : List Value) (rest : Steps ε κ Value),
      (∀ w, D.SoundRoutine n rest w (.free d) fun _ g o => leaves d g o) →
      D.SoundRoutine n (do
        let _ ← send (.walker D.walker) (.entry e) args
        rest) since (.free d) fun _ g o => leaves d g o := fun since e args rest h =>
    .invokeThen (by simp [answers, Message.isPublic]) (.entry d e args) (fun _ _ hg => hg)
      fun _ w _ => h w
  have hnode : D.SoundRoutine n (send (args.headD .none) .accept [.walker D.walker] : Steps ε κ _)
      since (.free d) fun _ g o => leaves d g o :=
    .asked (answers_others _ _ (by simp)) (fun _ => rfl) fun _ _ => rfl
  cases e
  case outlineTable => exact absurd rfl he
  case stepResult =>
    show D.SoundRoutine n (stepResultBlock (.walker D.walker) args) _ _ _
    unfold stepResultBlock
    split
    · rename_i keyword stepMatch multilineArg status failure indent background
      have hend : ∀ w : World ε, D.SoundRoutine n (pure .none : Steps ε κ Value) w (.free d)
          fun _ g o => leaves d g o := fun w => .pure fun _ _ => rfl
      by_cases hm : multilineArg = .none <;> by_cases hx : failure = .none <;>
        simp only [hm, hx, ne_eq, not_true_eq_false, not_false_eq_true, if_false, if_true]
      · exact hpart _ _ _ _ hend
      · exact hpart _ _ _ _ fun w => hpart _ _ _ _ hend
      · exact hpart _ _ _ _ fun w => hpart _ _ _ _ hend
      · exact hpart _ _ _ _ fun w => hpart _ _ _ _ fun w => hpart _ _ _ _ hend
    · exact .pure fun _ _ => rfl
  all_goals exact hnode

/-- What the walker does between the notifications of an event is called. -/
theorem sound_callBlock {e : Event} {row : Ref .tuple}
    (hrow : row.index < since.tuples.cells.size) {Q : World ε → Phase → Outcome → Prop}
    (h : ∀ w, since.tuples.Grows id w.tuples →
      D.SoundRoutine n (runBlock D.foreign (.walker D.walker) e (since.row row)) w g Q) :
    D.SoundRoutine n (callBlock D.foreign D.walker e row []) since g Q := by
  refine .bind (.bind (.read fun w x w₁ hw _ _ hw₁ => ?_))
  have hnone : ∀ method,
      (Parameters.exactly []).problem? method 0 ([] : List Value).length = none := fun method => Parameters.problem?_exactly [] method 0
  simp only [hnone]
  refine .pure fun w₂ hw₂ => .bind (.read fun w₃ x w₄ hw₃ _ _ hw₄ => ?_)
  have hsince := ((hw.trans hw₁).trans hw₂).trans hw₃
  rw [row_since hrow hsince]
  exact h w₄ (hsince.trans hw₄)

end Blocks

/-! ## All methods -/

section Body

open Walk

/-- An entry makes a row of its arguments, which stays as it is, and leaves its thread where it
was. -/
theorem sound_walkerEntry (d : Nat) (e : Event) (args : List Value) :
    D.SoundRoutine n (walkerEntry D.walker e args) since (.free d) fun _ g o => leaves d g o := by
  refine .bind (.quiet (fun w => World.aloof_storeTuple w args) fun w x w₁ hw _ _ hw₁ => ?_)
  have hrow : (w.storeTuple args).1.index < w₁.tuples.cells.size := by
    refine Nat.lt_of_lt_of_le ?_ hw₁.1
    simp [World.storeTuple, Store.next, Store.add]
  have hcall : ∀ (c : Call κ), D.answers c = true → D.Serves w₁ c (.free d) (leaves d) →
      D.SoundRoutine n (do
        let _ ← Routine.invoke c
        return .none) w₁ (.free d) fun _ g o => leaves d g o := fun c hc hserves =>
    .invokeThen hc hserves (fun _ _ hg => hg) fun _ _ _ => .pure fun _ _ => rfl
  show D.SoundRoutine n (if e = .announce then _ else if e.isComposite then _ else _) w₁ _ _
  split
  · rename_i he
    refine hcall _ (by simp [answers]) (.broadcast d e hrow ?_ (by simp [he]))
    simp [blockOf, he, Event.isComposite]
  · split
    · rename_i he
      exact hcall _ (by simp [answers]) (.visit d e hrow (by simp [blockOf, he]))
    · rename_i he
      exact hcall _ (by simp [answers]) (.visit d e hrow (by simp [blockOf, he]))

/-- Whatever methods call of one another is sound. -/
theorem sound_body {c : Call κ} {P : Phase → Outcome → Prop} (h : D.Serves since c g P) :
    D.SoundRoutine n (body D.foreign (D.thread n) c) since g fun _ g' o => P g' o := by
  cases h with
  | entry d e args =>
    exact .toWalker rfl (by simp) (fun _ => rfl) (fun _ _ => rfl) fun w _ =>
      sound_walkerEntry d e args
  | cancel d args =>
    refine .toWalker rfl (by simp) (fun _ => rfl) (fun _ _ => rfl) fun w _ => ?_
    refine .bind (.read fun w x w₁ _ hs _ _ => ?_)
    rw [World.ownValue_of_carried hs.ownership]
    exact .invokeThen (by simp [answers]) (.cancelToken d) (fun _ _ hg => hg) fun _ _ _ =>
      .pure fun _ _ => rfl
  | visit d e hrow hb =>
    exact .toWalker rfl (by simp) (fun _ => rfl) (fun _ _ => rfl) fun w hw =>
      sound_visit d e (Nat.lt_of_lt_of_le hrow hw.1) hb
  | broadcast d e hrow hb hd =>
    exact .toWalker rfl (by simp) (fun _ => rfl) (fun _ _ => rfl) fun w hw =>
      sound_broadcast d e (Nat.lt_of_lt_of_le hrow hw.1) hb hd
  | hold d =>
    exact .toToken rfl (by simp) (fun _ => rfl) (fun _ => rfl) fun w _ =>
      .pure fun _ _ => ⟨rfl, rfl⟩
  | acquire d =>
    exact .toToken rfl (by simp) (fun _ => rfl) (fun _ => rfl) fun w _ => sound_acquire d
  | await gen limit ht => exact sound_awaitToken gen limit ht
  | release d =>
    exact .toToken rfl (by simp) (fun _ => rfl) (fun _ => rfl) fun w _ => sound_release d
  | close r =>
    refine .deliver rfl (fun _ => rfl) (fun w x _ hf => (hf.ended r rfl).2.1 _ (by simp))
      fun w₁ _ => .run (fun w f hf => by cases hf) fun w₂ _ => .atomically fun w x _ hs hf => ?_
    exact ⟨x, .free 0, .closes hs hf, fun _ _ => rfl⟩
  | cancelToken d =>
    exact .toToken rfl (by simp) (fun _ => rfl) (fun _ => rfl) fun w _ => sound_cancelToken d
  | block d hrow he =>
    exact sound_callBlock hrow fun w _ => sound_runBlock d he _
  | table d hrow ht =>
    subst ht
    exact sound_callBlock hrow fun w _ => sound_runTable d _

end Body

end Desk

end GuardedWalk

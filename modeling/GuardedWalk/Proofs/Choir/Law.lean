import GuardedWalk.Proofs.Choir.Turns
import GuardedWalk.Proofs.Walk.Collecting

/-!
# Announcements do not disturb a walk

However the callbacks of a walk and of announcements on the same walker are interleaved, the walk
lets observers hear what it would without the announcements, and no announcement does anything to
the token of the walker. A recorder may take an end for that of another event, but it takes no end
for that of nothing, and when everybody has ended it holds no event to be open.

## Main results

* `GuardedWalk.Choir.InTune.undisturbed` — announcements leave tokens and sessions alone.
* `GuardedWalk.Choir.InTune.even` — what a recorder has noted when everybody has ended.
* `GuardedWalk.Choir.InTune.finish` — everybody can end.
* `GuardedWalk.Choir.announcements_interleave` — what holds of all interleavings.
-/

set_option autoImplicit false

namespace GuardedWalk

variable {ε κ : Type} {X : Cast} {F : Foreign ε κ} {D : Ref .list → Prop} {A : Agenda κ}
  {R : Recorder} {w w' : World ε} {k : Record} {e : Event} {args : List Value}

/-- All that somebody says is balanced. -/
theorem Errand.balanced (X : Cast) (D : Ref .list → Prop) (A : Agenda κ) (g : Errand) :
    ∃ ns, Balanced ns ∧ (g.role X D A : Role ε D).tells = X.announced ns := by
  cases g with
  | announcement t text =>
    refine ⟨_, .around .announce [.text text] .nil .nil, ?_⟩
    rw [Cast.announced_append, Cast.announced_around]
    simp [role, Cast.announcing]
  | walk =>
    show ∃ ns, Balanced ns ∧ Occasion.callbacks (X.course A fun _ => none).1 = X.announced ns
    rw [Cast.course_quiet]
    split
    · exact ⟨[], .nil, rfl⟩
    · exact ⟨A.notices, A.notices_balanced, by
        rw [Occasion.callbacks_filter, Agenda.callbacks_occasions]⟩

namespace Choir

variable {s s' : Choir ε κ}

/-! ## The beginning -/

/-- In the beginning there is nobody but the walk. -/
theorem singer_start {i : Nat} {a : Singer ε κ}
    (hi : (start X e args w : Choir ε κ).singers[i]? = some a) :
    i = 0 ∧ a = ⟨.walk, .ready ⟨Walk.send (.walker X.walker) (.entry e) args, []⟩⟩ := by
  obtain rfl : i = 0 := by simpa [start] using (List.getElem?_eq_some_iff.1 hi).1
  exact ⟨rfl, (Option.some.inj hi).symm⟩

theorem inTune_start (h : X.SetsOut F D e args A w) (hk : R.Keeps D .blank w) :
    (start X e args w : Choir ε κ).InTune X F D A R where
  stands := ⟨h.assembled, hk⟩
  fits i g p hi := by
    obtain ⟨rfl, ha⟩ := singer_start hi
    obtain ⟨rfl, rfl⟩ := Singer.mk.inj ha
    exact ⟨_, rfl, h.awaits⟩
  walk i g p hi := by
    obtain ⟨rfl, ha⟩ := singer_start hi
    obtain ⟨rfl, -⟩ := Singer.mk.inj ha
    simp
  begun := by simp [start]
  known := by simp [start]

/-! ## Announcements -/

/-- **No announcement does anything to a token or a session.** -/
theorem InTune.undisturbed (h : s.InTune X F D A R) {i : Nat} (hi : i ≠ 0)
    (hs : s.Step X F D R (some i) s') :
    s'.world.tokens = s.world.tokens ∧ s'.world.sessions = s.world.sessions := by
  cases hs with
  | begins | opens | closes | ends => exact ⟨rfl, rfl⟩
  | @goes _ g v v' w' hg hsettles =>
    obtain ⟨L, -, hfits⟩ := h.fits i g _ hg
    obtain ⟨v₁, w₁, hsettles', hdoes, -, -⟩ := (hfits.now h.stands).settles
    rw [Errand.role_thread] at hsettles'
    obtain ⟨rfl, rfl⟩ := hsettles.unique hsettles'
    cases g with
    | walk => exact absurd ((h.walk i .walk _ hg).1 rfl) hi
    | announcement t text =>
      have hspares : World.Spares s.world w' := hdoes
      exact ⟨hspares.sameTokens, hspares.sameSessions⟩
  | @hears _ g n next stack o w' l hg hR hanswers =>
    obtain ⟨w₁, l₁, hanswers', -, hbeside, htokens⟩ := h.told F (g.thread X) n
    obtain ⟨-, rfl⟩ := hanswers.unique hanswers'
    exact ⟨htokens, hbeside.sameSessions⟩

/-- What a singer has made so far, and what it has made when it has ended. -/
theorem InTune.made (h : s.InTune X F D A R) {i : Nat} {g : Errand} {p : Posture ε κ}
    (hi : s.singers[i]? = some ⟨g, p⟩) :
    strand i s.made <+: (g.role X D A : Role ε D).tells ∧
      ∀ o, p = .ended o → strand i s.made = (g.role X D A : Role ε D).tells ∧
        (g.role X D A : Role ε D).ends o := by
  obtain ⟨L, hL, hfits⟩ := h.fits i g p hi
  refine ⟨⟨L, hL⟩, ?_⟩
  rintro o rfl
  obtain ⟨hends, rfl⟩ := hfits
  exact ⟨by rw [← hL, List.append_nil], hends⟩

/-! ## The recorder -/

/-- Of what a singer has made no more has ended than has begun. -/
theorem InTune.level (h : s.InTune X F D A R) (o : Ref .observer) (i : Nat) :
    ∃ d, Told.level 0 (Audience.toldTo o (strand i s.made)) = some d := by
  cases hi : s.singers[i]? with
  | none =>
    rw [h.strand_of_none hi]
    exact ⟨0, rfl⟩
  | some a =>
    obtain ⟨ns, hns, htells⟩ := a.errand.balanced (ε := ε) X D A
    have hpart := (h.made hi).1
    rw [htells] at hpart
    exact Told.level_of_part (hns.level X o 0) ((hpart.filter _).map _)

/-- When everybody has ended, all has ended that has begun. -/
theorem InTune.level_over (h : s.InTune X F D A R) (hover : s.Over) (o : Ref .observer) (i : Nat) :
    Told.level 0 (Audience.toldTo o (strand i s.made)) = some 0 := by
  cases hi : s.singers[i]? with
  | none =>
    rw [h.strand_of_none hi]
    rfl
  | some a =>
    obtain ⟨ns, hns, htells⟩ := a.errand.balanced (ε := ε) X D A
    obtain ⟨r, hr⟩ := hover a (List.mem_of_getElem? hi)
    rw [((h.made hi).2 r hr).1, htells]
    exact hns.level X o 0

/-- **When everybody has ended**, the recorder holds nothing to be open, it has taken no end for
that of nothing, and each event has ended as often as it has begun. -/
theorem InTune.even (h : s.InTune X F D A R) (hover : s.Over) :
    (s.record R).opened = [] ∧
      (∀ n ∈ (s.record R).notes, n.word = Recording.afterWord → ∃ e : Event, n.event = .event e) ∧
      ∀ e : Event, (s.record R).notes.countP (Note.isAbout Recording.beforeWord e) =
        (s.record R).notes.countP (Note.isAbout Recording.afterWord e) := by
  have htallies : (s.record R).Tallies _ := Record.tallies_of_strand (h.level R.observer)
  obtain ⟨hopened, hcounts⟩ := htallies.even (Record.ended_eq_begun (h.level_over hover R.observer))
  exact ⟨hopened, htallies.ends, hcounts⟩

/-! ## Everybody can end -/

section Finish

variable {i : Nat} {g : Errand} {p : Posture ε κ} {v : Voice ε κ} {L : List Callback}

/-- A singer can end, and all others stay where they are. -/
def CanEnd (X : Cast) (F : Foreign ε κ) (D : Ref .list → Prop) (R : Recorder) (s : Choir ε κ)
    (i : Nat) (g : Errand) : Prop :=
  ∃ s' o, Runs X F D R s s' ∧ s'.singers = s.singers.set i ⟨g, .ended o⟩

/-- Who can end later can end now, if nobody else has moved until then. -/
theorem CanEnd.earlier {a : Singer ε κ} (h : CanEnd X F D R s' i g) (hs : Runs X F D R s s')
    (hsingers : s'.singers = s.singers.set i a) : CanEnd X F D R s i g := by
  obtain ⟨s'', o, hruns, hend⟩ := h
  exact ⟨s'', o, hs.trans hruns, by rw [hend, hsingers, List.set_set]⟩

/-- Others hear of something, and answer. -/
theorem InTune.answered {c : Call κ} {x : Occasion κ} (h : s.InTune X F D A R)
    {next : Outcome → Program ε (Call κ) Outcome}
    {stack : List (Outcome → Program ε (Call κ) Outcome)}
    (hi : s.singers[i]? = some ⟨g, .halted ⟨.call c next, stack⟩⟩) (hx : X.occasion? c = some x) :
    ∃ u s' ts, Runs X F D R s s' ∧
      s'.singers = s.singers.set i ⟨g, .ready ⟨next (.ok u), stack⟩⟩ ∧
      World.Beside D s.world s'.world ∧
      s'.record R = (ts : List Told).foldl Record.hear (s.record R) := by
  by_cases hR : ∃ n, x = .told R.observer n
  · obtain ⟨n, rfl⟩ := hR
    obtain ⟨rfl, ho⟩ := Cast.call_of_told hx
    obtain ⟨w', l, hanswers, -, hbeside, -⟩ := h.told F (g.thread X) n
    exact ⟨.none, _, _, (Runs.refl s).snoc (.hears hi ho hanswers), rfl, hbeside, record_put ..⟩
  · have hne : ∀ n, x ≠ .told R.observer n := fun n hn => hR ⟨n, hn⟩
    have hinside := singer_put hi ⟨g, .inside next stack⟩ s.world x.callback?.toList
    refine ⟨.none, _, [], ((Runs.refl s).snoc (.opens hi hx hne)).snoc (.closes .none hinside),
      List.set_set .., .refl D s.world, ?_⟩
    rw [record_put, record_put, Audience.toldTo_callback hne]
    rfl

/-- A singer who can go on comes to an end, if nobody else does anything. -/
theorem canEnd_of_foresees {v₀ : Voice ε κ}
    (hv : X.Foresees F R (g.role X D A) v w k L) (h : s.InTune X F D A R)
    (hi : s.singers[i]? = some ⟨g, .ready v₀⟩) (hk : s.record R = k)
    (hsettles : ∀ v' w', v.Settles X.isOutside (Walk.body F (g.thread X)) w v' w' →
      v₀.Settles X.isOutside (Walk.body F (g.thread X)) s.world v' w') :
    CanEnd X F D R s i g := by
  -- the singer takes no step until it is at an occasion: `v₀` is where it stands, `v` where it has
  -- come to in the meantime
  induction hv generalizing s v₀ with
  | @ended o w k ho hw =>
    have hgoes := Step.goes (D := D) (R := R) hi (hsettles _ _ (.stops (Cast.advance_ended ..)))
    have hhalted := singer_put hi ⟨g, .halted ⟨.done o, []⟩⟩ w []
    exact ⟨_, o, ((Runs.refl s).snoc hgoes).snoc (.ends hhalted), List.set_set ..⟩
  | goes hstep _ _ ih =>
    rw [Errand.role_thread] at hstep
    exact ih h hi hk fun v' w' hs => hsettles v' w' (.goes hstep hs)
  | @calls c x next stack w k L hx hw _ ih =>
    have hgoes := Step.goes (D := D) (R := R) hi (hsettles _ _ (.stops (Cast.advance_calls hx ..)))
    have h₁ := h.step hgoes
    have hhalted := singer_put hi ⟨g, .halted ⟨.call c next, stack⟩⟩ w []
    obtain ⟨u, s₂, ts, hruns, hsingers, hbeside, hrecord⟩ := h₁.answered hhalted hx
    have h₂ := hruns.inTune h₁
    rw [record_put, hk] at hrecord
    have hready : s₂.singers[i]? = some ⟨g, .ready ⟨next (.ok u), stack⟩⟩ := by
      rw [hsingers]
      exact List.getElem?_set_self (List.getElem?_eq_some_iff.1 hhalted).1
    have hend : CanEnd X F D R s₂ i g :=
      ih u s₂.world ts ((g.role X D A).bears_beside hbeside) (hrecord ▸ h₂.stands) h₂ hready hrecord
        fun _ _ hs => hs
    exact (hend.earlier hruns hsingers).earlier ((Runs.refl s).snoc hgoes) rfl

theorem InTune.canEnd_of_ready (h : s.InTune X F D A R) (hi : s.singers[i]? = some ⟨g, .ready v⟩) :
    CanEnd X F D R s i g := by
  obtain ⟨L, -, hfits⟩ := h.fits i g _ hi
  exact canEnd_of_foresees (hfits.now h.stands) h hi rfl fun _ _ hs => hs

/-- **Each singer can end**, and all others stay where they are. -/
theorem InTune.canEnd (h : s.InTune X F D A R) (hi : s.singers[i]? = some ⟨g, p⟩) :
    CanEnd X F D R s i g := by
  have hlt := (List.getElem?_eq_some_iff.1 hi).1
  cases p with
  | ready v => exact h.canEnd_of_ready hi
  | halted v =>
    obtain ⟨L, -, hfits⟩ := h.fits i g _ hi
    cases hfits with
    | ended => exact ⟨_, _, (Runs.refl s).snoc (.ends hi), rfl⟩
    | @calls c x next stack _ _ _ hx _ =>
      obtain ⟨u, s₁, ts, hruns, hsingers, -, -⟩ := h.answered hi hx
      have hi₁ : s₁.singers[i]? = some ⟨g, .ready ⟨next (.ok u), stack⟩⟩ := by
        rw [hsingers]
        exact List.getElem?_set_self hlt
      exact ((hruns.inTune h).canEnd_of_ready hi₁).earlier hruns hsingers
  | inside next stack =>
    have hcloses := Step.closes (F := F) (D := D) (R := R) (X := X) .none hi
    have hend := (h.step hcloses).canEnd_of_ready (singer_put hi ..)
    exact hend.earlier ((Runs.refl s).snoc hcloses) rfl
  | ended o =>
    refine ⟨s, o, .refl s, ?_⟩
    obtain ⟨_, hget⟩ := List.getElem?_eq_some_iff.1 hi
    rw [← hget, List.set_getElem_self]

/-- The first singers can end, one after the other, and nobody else joins. -/
theorem InTune.finish_first (h : s.InTune X F D A R) {n : Nat} (hn : n ≤ s.singers.length) :
    ∃ s', Runs X F D R s s' ∧ s'.singers.map Singer.errand = s.singers.map Singer.errand ∧
      ∀ j < n, ∀ a, s'.singers[j]? = some a → ∃ o, a.posture = .ended o := by
  induction n with
  | zero => exact ⟨s, .refl s, rfl, fun j hj => absurd hj (Nat.not_lt_zero j)⟩
  | succ n ih =>
    obtain ⟨s₁, hruns, hsame, hover⟩ := ih (Nat.le_of_succ_le hn)
    have hlen : s₁.singers.length = s.singers.length := by
      simpa using congrArg List.length hsame
    have hlt : n < s₁.singers.length := by omega
    obtain ⟨⟨g, p⟩, hi⟩ : ∃ a, s₁.singers[n]? = some a := ⟨_, List.getElem?_eq_getElem hlt⟩
    obtain ⟨s', o, hruns', hend⟩ := (hruns.inTune h).canEnd hi
    refine ⟨s', hruns.trans hruns', ?_, fun j hj a ha => ?_⟩
    · have hg : (s₁.singers.map Singer.errand)[n]? = some g := by
        rw [List.getElem?_map, hi]
        rfl
      obtain ⟨hlt', hget⟩ := List.getElem?_eq_some_iff.1 hg
      rw [hend, List.map_set, ← hsame, ← hget, List.set_getElem_self]
    · by_cases hj' : n = j
      · subst hj'
        rw [hend, List.getElem?_set_self hlt] at ha
        obtain rfl := Option.some.inj ha
        exact ⟨o, rfl⟩
      · rw [hend, List.getElem?_set_ne hj'] at ha
        exact hover j (by omega) a ha

/-- **Everybody can end**, without anybody else joining. -/
theorem InTune.finish (h : s.InTune X F D A R) :
    ∃ s', Runs X F D R s s' ∧ s'.Over ∧
      s'.singers.map Singer.errand = s.singers.map Singer.errand := by
  obtain ⟨s', hruns, hsame, hover⟩ := h.finish_first (Nat.le_refl _)
  refine ⟨s', hruns, fun a ha => ?_, hsame⟩
  obtain ⟨j, hj⟩ := List.getElem?_of_mem ha
  have hlen : s'.singers.length = s.singers.length := by
    simpa using congrArg List.length hsame
  exact hover j (hlen ▸ (List.getElem?_eq_some_iff.1 hj).1) a hj

end Finish

/-! ## All interleavings -/

/-- **Announcements do not disturb a walk**, nor does the walk disturb them, however their callbacks
are interleaved. No step of an announcement changes a token or a session. Each announcement tells
all observers that it begins and then that it ends, and does not fail. The walk tells what it would
without the announcements. When everybody has ended, a recorder that had noted nothing before holds
no event to be open, has noted no end of nothing, and as many ends as beginnings of each event. And
however far they are, everybody can end. -/
theorem announcements_interleave (h : X.SetsOut F D e args A w) (hk : R.Keeps D .blank w)
    (hs : Runs X F D R (start X e args w) s) :
    (∀ i s', i ≠ 0 → s.Step X F D R (some i) s' →
      s'.world.tokens = s.world.tokens ∧ s'.world.sessions = s.world.sessions) ∧
    (∀ i t text p, s.singers[i]? = some ⟨.announcement t text, p⟩ →
      let told := X.toAll (.before .announce [.text text]) ++ X.toAll .after
      strand i s.made <+: told ∧
        ∀ o, p = .ended o → strand i s.made = told ∧ failure? o = none) ∧
    (∃ p r σ, s.singers[0]? = some ⟨.walk, p⟩ ∧
      (X.quietly F fun _ => none).Runs (Walk.send (.walker X.walker) (.entry e) args) (.start w)
        r σ ∧
      strand 0 s.made <+: X.heard σ.calls ∧
      ∀ o, p = .ended o → strand 0 s.made = X.heard σ.calls ∧ failure? o = failure? r) ∧
    (s.Over → s.world.member (.observer R.observer) "depth" = .ok (.value (.int 0)) ∧
      ∃ notes : List Note, (s.world.items R.notes).map s.world.note? = notes.map some ∧
        (∀ n ∈ notes, n.word = Recording.afterWord → n.event ≠ .none) ∧
        ∀ e : Event, notes.countP (Note.isAbout Recording.beforeWord e) =
          notes.countP (Note.isAbout Recording.afterWord e)) ∧
    ∃ s', Runs X F D R s s' ∧ s'.Over ∧
      s'.singers.map Singer.errand = s.singers.map Singer.errand := by
  have htune : s.InTune X F D A R := hs.inTune (inTune_start h hk)
  refine ⟨fun i s' hi hstep => htune.undisturbed hi hstep, fun i t text p hi => htune.made hi, ?_,
    fun hover => ?_, htune.finish⟩
  · obtain ⟨⟨g, p⟩, hi⟩ : ∃ a, s.singers[0]? = some a := ⟨_, List.getElem?_eq_getElem htune.begun⟩
    obtain rfl : g = .walk := (htune.walk 0 g p hi).2 rfl
    obtain ⟨r, σ, hruns, hheard, hr⟩ := h.walk (Cast.attended_quietly X F D fun _ => none)
    have htells : X.heard σ.calls = (Errand.walk.role X D A : Role ε D).tells := by
      rw [← Cast.callbacks_occasions, hheard]
      rfl
    refine ⟨p, r, σ, hi, hruns, ?_, fun o ho => ?_⟩ <;> rw [htells]
    · exact (htune.made hi).1
    · obtain ⟨hmade, hends⟩ := (htune.made hi).2 o ho
      exact ⟨hmade, Eq.trans hends hr.symm⟩
  · obtain ⟨hopened, hends, hcounts⟩ := htune.even hover
    refine ⟨?_, _, htune.stands.keeps.read.2, fun n hn hword => ?_, hcounts⟩
    · rw [htune.stands.keeps.depth, hopened]
      rfl
    · obtain ⟨e, he⟩ := hends n hn hword
      simp [he]

/-- While a walker goes through a small document, two texts are announced, one of them on another
thread, and everybody ends. -/
theorem announcements_interleave_in_small_document :
    ∃ s : Choir (List Callback) Empty,
      Runs Pair.cast Pair.code Pair.audience.lists Pair.recorder
        (start Pair.cast .features [Document.login.value] Pair.world) s ∧
      s.singers.map Singer.errand =
        [.walk, .announcement .main "ready", .announcement ⟨1, "other"⟩ "steady"] ∧
      s.Over ∧
      strand 2 s.made =
        [(⟨1⟩, .before .announce [.text "steady"]), (⟨0⟩, .before .announce [.text "steady"]),
          (⟨1⟩, .after), (⟨0⟩, .after)] ∧
      s.world.member (.observer Pair.recorder.observer) "depth" = .ok (.value (.int 0)) := by
  have hout : Cast.SetsOut Pair.cast Pair.code Pair.audience.lists .features [Document.login.value]
      (Document.login.entered .features) Pair.world :=
    .of_document Pair.fits Pair.assembled Pair.held rfl
  have hblank : Pair.recorder.Keeps Pair.audience.lists .blank Pair.world :=
    Pair.listens.notes Pair.recorder List.mem_cons_self
  have hbegun : Runs Pair.cast Pair.code Pair.audience.lists Pair.recorder
      (start Pair.cast .features [Document.login.value] Pair.world) _ :=
    ((Runs.refl _).snoc (.begins .main "ready")).snoc (.begins ⟨1, "other"⟩ "steady")
  obtain ⟨-, -, -, -, s, hruns, hover, hsame⟩ := announcements_interleave hout hblank hbegun
  have hall := hbegun.trans hruns
  obtain ⟨-, hmade, -, heven, -⟩ := announcements_interleave hout hblank hall
  refine ⟨s, hall, hsame, hover, ?_, (heven hover).1⟩
  have herrand : (s.singers.map Singer.errand)[2]? =
      some (.announcement ⟨1, "other"⟩ "steady") := by
    rw [hsame]
    rfl
  obtain ⟨⟨g, p⟩, hi, hg⟩ := Option.map_eq_some_iff.1 (List.getElem?_map .. ▸ herrand)
  obtain rfl : g = _ := hg
  obtain ⟨o, ho⟩ := hover _ (List.mem_of_getElem? hi)
  exact ((hmade 2 _ _ p hi).2 o ho).1

end Choir

end GuardedWalk

import GuardedWalk.Proofs.Choir.Announcing
import GuardedWalk.Proofs.Choir.Tally
import GuardedWalk.Proofs.Choir.Walking

/-!
# A walk and announcements by turns

A walk goes on while texts are announced on the same walker, on any threads, each begun at any time:
before the first step of the walk, while an observer is being told something, or when the walk is
over. One of them at a time goes on up to its next callback, or is given what a callback has come
to. Of the observers one is a recorder, and what it does is what its class says. What the others do
when they are told something takes any time and may be anything that leaves alone what a walk relies
on; no failure comes of it.

## Main definitions

* `GuardedWalk.Errand`, `Singer` — a walk or an announcement, and how far it is.
* `GuardedWalk.Choir` — a walk with announcements, and the callbacks so far.
* `GuardedWalk.Choir.Step`, `Runs` — one of them does something, any number of times.
* `GuardedWalk.Choir.InTune` — what holds at all times.

## Main results

* `GuardedWalk.Choir.InTune.step` — what each step keeps.
* `GuardedWalk.Choir.Runs.inTune` — what holds at all times.

## Design

What an announcement is begun from is not kept: one that an observer makes while it is being told
something is begun while that callback lasts, on the thread of the callback. Nothing keeps other
steps from being taken then, so what holds of all these runs holds of those in which the callback
waits for the announcement. What a singer does between two callbacks is what a machine does on its
thread, as `GuardedWalk.Voice.Settles.reaches` says.
-/

set_option autoImplicit false

namespace GuardedWalk

variable {ε κ : Type}

/-! ## Those who take part -/

/-- What somebody is about. -/
inductive Errand where
  /-- The walk. -/
  | walk
  /-- An announcement of a text on a thread. -/
  | announcement (t : Thread) (text : String)

/-- How far somebody is. -/
inductive Posture (ε κ : Type) where
  /-- It can go on. -/
  | ready (v : Voice ε κ)
  /-- It has stopped: it is at its end, or others are to hear of something. -/
  | halted (v : Voice ε κ)
  /-- Others hear of something, and have not answered. -/
  | inside (next : Outcome → Program ε (Call κ) Outcome)
    (stack : List (Outcome → Program ε (Call κ) Outcome))
  /-- It has ended. -/
  | ended (o : Outcome)

/-- Somebody who lets observers hear of something. -/
structure Singer (ε κ : Type) where
  errand : Errand
  posture : Posture ε κ

/-- A walk with announcements on the same walker. -/
structure Choir (ε κ : Type) where
  world : World ε
  /-- The walk, and after it the announcements in the order in which they were begun. -/
  singers : List (Singer ε κ)
  /-- The callbacks, each with the place of the singer who makes it. -/
  made : List (Nat × Callback)

namespace Errand

variable {D : Ref .list → Prop}

/-- The thread on which somebody is about something. -/
def thread (X : Cast) : Errand → Thread
  | walk => X.thread
  | announcement t _ => t

/-- What somebody relies on and guarantees. -/
def role (X : Cast) (D : Ref .list → Prop) (A : Agenda κ) : Errand → Role ε D
  | walk => X.walking D A
  | announcement t text => X.announcing D t text

theorem role_thread (X : Cast) (A : Agenda κ) (g : Errand) :
    (g.role X D A : Role ε D).thread = g.thread X := by
  cases g <;> rfl

end Errand

/-- Somebody begins to announce a text. -/
def Singer.announcing (X : Cast) (t : Thread) (text : String) : Singer ε κ :=
  ⟨.announcement t text,
    .ready ⟨Walk.send (.walker X.walker) (.entry .announce) [.text text], []⟩⟩

namespace Choir

/-- A walk is about to begin. -/
def start (X : Cast) (e : Event) (args : List Value) (w : World ε) : Choir ε κ :=
  ⟨w, [⟨.walk, .ready ⟨Walk.send (.walker X.walker) (.entry e) args, []⟩⟩], []⟩

/-- One of the singers has done something and made some callbacks. -/
def put (s : Choir ε κ) (i : Nat) (a : Singer ε κ) (w : World ε) (cs : List Callback) :
    Choir ε κ :=
  ⟨w, s.singers.set i a, s.made ++ cs.map (i, ·)⟩

/-- The lists that nobody but those who keep something there may change. -/
def Kept (D : Ref .list → Prop) (R : Recorder) (l : Ref .list) : Prop :=
  D l ∨ l = R.notes ∨ l = R.opened

/-- One step, with the place of the singer who takes it, if one does. -/
inductive Step (X : Cast) (F : Foreign ε κ) (D : Ref .list → Prop) (R : Recorder)
    (s : Choir ε κ) : Option Nat → Choir ε κ → Prop where
  /-- An announcement is begun. -/
  | begins (t : Thread) (text : String) :
    Step X F D R s (some s.singers.length)
      { s with singers := s.singers ++ [.announcing X t text] }
  /-- A singer goes on until it stops. -/
  | goes {i : Nat} {g : Errand} {v v' : Voice ε κ} {w' : World ε}
      (hi : s.singers[i]? = some ⟨g, .ready v⟩)
      (h : v.Settles X.isOutside (Walk.body F (g.thread X)) s.world v' w') :
    Step X F D R s (some i) (s.put i ⟨g, .halted v'⟩ w' [])
  /-- The recorder is told something. -/
  | hears {i : Nat} {g : Errand} {n : Told} {next : Outcome → Program ε (Call κ) Outcome}
      {stack : List (Outcome → Program ε (Call κ) Outcome)} {o : Outcome} {w' : World ε}
      {l : List (Call κ)}
      (hi : s.singers[i]? = some ⟨g, .halted ⟨.call (n.call R.observer) next, stack⟩⟩)
      (hR : R.observer ∈ X.observers)
      (h : Surroundings.Answers (Walk.body F (g.thread X)) s.world (n.call R.observer) o w' l) :
    Step X F D R s (some i) (s.put i ⟨g, .ready ⟨next o, stack⟩⟩ w' [(R.observer, n)])
  /-- Others begin to hear of something. -/
  | opens {i : Nat} {g : Errand} {c : Call κ} {x : Occasion κ}
      {next : Outcome → Program ε (Call κ) Outcome}
      {stack : List (Outcome → Program ε (Call κ) Outcome)}
      (hi : s.singers[i]? = some ⟨g, .halted ⟨.call c next, stack⟩⟩)
      (hx : X.occasion? c = some x) (hne : ∀ n, x ≠ .told R.observer n) :
    Step X F D R s (some i) (s.put i ⟨g, .inside next stack⟩ s.world x.callback?.toList)
  /-- They answer. -/
  | closes {i : Nat} {g : Errand} {next : Outcome → Program ε (Call κ) Outcome}
      {stack : List (Outcome → Program ε (Call κ) Outcome)} (u : Value)
      (hi : s.singers[i]? = some ⟨g, .inside next stack⟩) :
    Step X F D R s (some i) (s.put i ⟨g, .ready ⟨next (.ok u), stack⟩⟩ s.world [])
  /-- A singer ends. -/
  | ends {i : Nat} {g : Errand} {o : Outcome}
      (hi : s.singers[i]? = some ⟨g, .halted ⟨.done o, []⟩⟩) :
    Step X F D R s (some i) (s.put i ⟨g, .ended o⟩ s.world [])
  /-- Others do something. -/
  | elsewhere {w' : World ε} (h : World.Beside (Kept D R) s.world w') :
    Step X F D R s none { s with world := w' }

/-- Any number of steps. -/
inductive Runs (X : Cast) (F : Foreign ε κ) (D : Ref .list → Prop) (R : Recorder) :
    Choir ε κ → Choir ε κ → Prop where
  | refl (s : Choir ε κ) : Runs X F D R s s
  | snoc {s s₁ s' : Choir ε κ} {i? : Option Nat} (h : Runs X F D R s s₁)
    (h' : s₁.Step X F D R i? s') : Runs X F D R s s'

/-- Everybody has ended. -/
def Over (s : Choir ε κ) : Prop := ∀ a ∈ s.singers, ∃ o, a.posture = .ended o

/-- What a recorder has noted. -/
def record (R : Recorder) (s : Choir ε κ) : Record :=
  (Audience.toldTo R.observer (s.made.map Prod.snd)).foldl Record.hear .blank

end Choir

variable {X : Cast} {F : Foreign ε κ} {D : Ref .list → Prop} {A : Agenda κ} {R : Recorder}
  {ρ : Role ε D} {w w' : World ε} {k : Record} {L : List Callback}

theorem Choir.Runs.trans {s s₁ s' : Choir ε κ} (h : Choir.Runs X F D R s s₁)
    (h' : Choir.Runs X F D R s₁ s') : Choir.Runs X F D R s s' := by
  induction h' with
  | refl => exact h
  | snoc _ hs ih => exact ih.snoc hs

/-! ## What holds at all times -/

/-- How far somebody is, given what observers will still be told. -/
def Posture.Fits (X : Cast) (F : Foreign ε κ) (R : Recorder) (ρ : Role ε D) (w : World ε)
    (k : Record) (L : List Callback) : Posture ε κ → Prop
  | ready v => X.Awaits F R ρ v w k L
  | halted v => X.Rests F R ρ v w k L
  | inside next stack => ∀ u, X.Awaits F R ρ ⟨next (.ok u), stack⟩ w k L
  | ended o => ρ.ends o ∧ L = []

/-- Others have done something. -/
theorem Posture.Fits.bears {p : Posture ε κ} (h : p.Fits X F R ρ w k L) (hw : ρ.bears w w')
    (ts : List Told) : p.Fits X F R ρ w' (ts.foldl Record.hear k) L := by
  cases p with
  | ready v => exact Cast.Awaits.bears h hw ts
  | halted v => exact Cast.Rests.bears h hw ts
  | inside next stack => exact fun u => (h u).bears hw ts
  | ended o => exact h

namespace Choir

/-- What holds at all times: each singer has made some callbacks and it is known which ones are
still to come. -/
structure InTune (X : Cast) (F : Foreign ε κ) (D : Ref .list → Prop) (A : Agenda κ) (R : Recorder)
    (s : Choir ε κ) : Prop where
  stands : X.Stands D R (s.record R) s.world
  fits : ∀ i g p, s.singers[i]? = some ⟨g, p⟩ → ∃ L,
    strand i s.made ++ L = (g.role X D A : Role ε D).tells ∧
      p.Fits X F R (g.role X D A) s.world (s.record R) L
  /-- The walk comes first, and there is only one. -/
  walk : ∀ i g p, s.singers[i]? = some ⟨g, p⟩ → (g = .walk ↔ i = 0)
  begun : 0 < s.singers.length
  known : ∀ c ∈ s.made, c.1 < s.singers.length

variable {s s' : Choir ε κ} {i : Nat} {g : Errand} {p : Posture ε κ} {cs : List Callback}

theorem record_put (s : Choir ε κ) (i : Nat) (a : Singer ε κ) (w : World ε) (cs : List Callback) :
    (s.put i a w cs).record R =
      (Audience.toldTo R.observer cs).foldl Record.hear (s.record R) := by
  have hmap : (cs.map fun c => (i, c)).map Prod.snd = cs := by
    rw [List.map_map]
    exact List.map_id cs
  simp only [record, put, List.map_append, hmap, Audience.toldTo_append_list, List.foldl_append]

/-- A singer stands where it has been put. -/
theorem singer_put {a : Singer ε κ} (hi : s.singers[i]? = some a) (b : Singer ε κ) (w : World ε)
    (cs : List Callback) : (s.put i b w cs).singers[i]? = some b :=
  List.getElem?_set_self (List.getElem?_eq_some_iff.1 hi).1

theorem strand_put (j : Nat) (s : Choir ε κ) (i : Nat) (a : Singer ε κ) (w : World ε)
    (cs : List Callback) :
    strand j (s.put i a w cs).made = strand j s.made ++ if j = i then cs else [] := by
  have hone : strand j (cs.map fun c => (i, c)) = if j = i then cs else [] := by
    unfold strand
    rw [List.filter_map]
    split
    · rename_i h
      subst h
      simp [Function.comp_def]
    · rename_i h
      simp [Function.comp_def, Ne.symm h]
  rw [← hone]
  exact strand_append ..

/-- Somebody who sings when another one has joined has sung before, or is the other one. -/
theorem joined {l : List (Singer ε κ)} {a b : Singer ε κ} {j : Nat}
    (h : (l ++ [a])[j]? = some b) : l[j]? = some b ∨ j = l.length ∧ a = b := by
  by_cases hj : j < l.length
  · rw [List.getElem?_append_left hj] at h
    exact .inl h
  · rw [List.getElem?_append_right (Nat.le_of_not_lt hj)] at h
    obtain ⟨hlt, rfl⟩ := List.getElem?_eq_some_iff.1 h
    have hlen : j = l.length := by
      simp at hlt
      omega
    subst hlen
    exact .inr ⟨rfl, by simp⟩

/-- Nobody has made callbacks before joining. -/
theorem InTune.strand_of_none (h : s.InTune X F D A R) (hi : s.singers[i]? = none) :
    strand i s.made = [] := by
  unfold strand
  rw [List.map_eq_nil_iff, List.filter_eq_nil_iff]
  intro c hc
  have hlt : c.1 < i := Nat.lt_of_lt_of_le (h.known c hc) (List.getElem?_eq_none_iff.1 hi)
  simp [Nat.ne_of_lt hlt]

/-- **One of the singers does something**, and the others bear it. -/
theorem InTune.put (h : s.InTune X F D A R) {p₀ : Posture ε κ} (hi : s.singers[i]? = some ⟨g, p₀⟩)
    (hothers : ∀ j g' p', j ≠ i → s.singers[j]? = some ⟨g', p'⟩ →
      (g'.role X D A).bears s.world w')
    (hstands : X.Stands D R ((Audience.toldTo R.observer cs).foldl Record.hear (s.record R)) w')
    (hfits : ∃ L, strand i s.made ++ (cs ++ L) = (g.role X D A : Role ε D).tells ∧
      p.Fits X F R (g.role X D A) w'
        ((Audience.toldTo R.observer cs).foldl Record.hear (s.record R)) L) :
    (s.put i ⟨g, p⟩ w' cs).InTune X F D A R := by
  have hlt : i < s.singers.length := (List.getElem?_eq_some_iff.1 hi).1
  have hself : (s.singers.set i ⟨g, p⟩)[i]? = some ⟨g, p⟩ := by
    simp [List.getElem?_set_self hlt]
  have hother : ∀ j, j ≠ i → (s.singers.set i ⟨g, p⟩)[j]? = s.singers[j]? :=
    fun j hj => List.getElem?_set_ne (Ne.symm hj)
  refine ⟨?_, fun j g' p' hj => ?_, fun j g' p' hj => ?_, ?_, fun c hc => ?_⟩
  · rw [record_put]
    exact hstands
  · -- the strand of the one singer goes on with what has just been made, all others stay
    rw [record_put, strand_put]
    by_cases hji : j = i
    · subst hji
      obtain ⟨rfl, rfl⟩ := Singer.mk.inj (Option.some.inj (hself.symm.trans hj))
      obtain ⟨L, hL, hL'⟩ := hfits
      exact ⟨L, by rw [if_pos rfl, List.append_assoc]; exact hL, hL'⟩
    · have hj' : s.singers[j]? = some ⟨g', p'⟩ := (hother j hji).symm.trans hj
      obtain ⟨L, hL, hL'⟩ := h.fits j g' p' hj'
      exact ⟨L, by rw [if_neg hji, List.append_nil]; exact hL,
        hL'.bears (hothers j g' p' hji hj') _⟩
  · by_cases hji : j = i
    · subst hji
      obtain ⟨rfl, -⟩ := Singer.mk.inj (Option.some.inj (hself.symm.trans hj))
      exact h.walk j g p₀ hi
    · exact h.walk j g' p' ((hother j hji).symm.trans hj)
  · show 0 < (s.singers.set i ⟨g, p⟩).length
    rw [List.length_set]
    exact h.begun
  · show c.1 < (s.singers.set i ⟨g, p⟩).length
    rw [List.length_set]
    rcases List.mem_append.1 hc with hc | hc
    · exact h.known c hc
    · obtain ⟨c', -, rfl⟩ := List.mem_map.1 hc
      exact hlt

/-- Nothing happens but that one of the singers is elsewhere. -/
theorem InTune.put_same (h : s.InTune X F D A R) {p₀ : Posture ε κ}
    (hi : s.singers[i]? = some ⟨g, p₀⟩) (htold : Audience.toldTo R.observer cs = [])
    (hfits : ∃ L, strand i s.made ++ (cs ++ L) = (g.role X D A : Role ε D).tells ∧
      p.Fits X F R (g.role X D A) s.world (s.record R) L) :
    (s.put i ⟨g, p⟩ s.world cs).InTune X F D A R := by
  refine h.put hi (fun _ g' _ _ _ => (g'.role X D A).bears_beside (.refl D s.world)) ?_ ?_
  · rw [htold]
    exact h.stands
  · rw [htold]
    exact hfits

/-- What a singer does between two callbacks is borne by all others. -/
theorem InTune.bears (h : s.InTune X F D A R) (hi : s.singers[i]? = some ⟨g, p⟩)
    (hdoes : (g.role X D A).does s.world w') (j : Nat) (g' : Errand) (p' : Posture ε κ) (hj : j ≠ i)
    (hj' : s.singers[j]? = some ⟨g', p'⟩) : (g'.role X D A).bears s.world w' := by
  cases g' with
  | announcement t text => trivial
  | walk =>
    obtain rfl := (h.walk j .walk p' hj').1 rfl
    cases g with
    | walk => exact absurd ((h.walk i .walk p hi).1 rfl) (Ne.symm hj)
    | announcement t text =>
      exact Role.bears_beside _ ((World.Spares.toBeside hdoes).mono fun _ _ => trivial)

/-- The recorder notes what it is told. -/
theorem InTune.told (h : s.InTune X F D A R) (F : Foreign ε κ) (t : Thread) (n : Told) :
    ∃ w' l, Surroundings.Answers (Walk.body F t) s.world (n.call R.observer) (.ok .none) w' l ∧
      X.Stands D R ((s.record R).hear n) w' ∧ World.Beside D s.world w' ∧
      w'.tokens = s.world.tokens := by
  obtain ⟨o, w', l, hanswers, rfl, hkeeps, hbeside, htokens⟩ := h.stands.keeps.told F t n
  have hD : World.Beside D s.world w' := hbeside.mono fun _ hl => h.stands.keeps.ne_of_mem hl
  exact ⟨w', l, hanswers,
    ⟨h.stands.assembled.frame hbeside.toFrame fun _ _ => trivial, hkeeps⟩, hD, htokens⟩

/-- Somebody begins to announce a text, and nobody else notices. -/
theorem InTune.joins (h : s.InTune X F D A R) (t : Thread) (text : String) :
    InTune X F D A R { s with singers := s.singers ++ [.announcing X t text] } where
  stands := h.stands
  fits j g' p' hj := by
    rcases joined hj with hj | ⟨rfl, ha⟩
    · exact h.fits j g' p' hj
    · obtain ⟨rfl, rfl⟩ := Singer.mk.inj ha
      refine ⟨_, ?_, X.awaits_announcement F D R t text s.world (s.record R)⟩
      rw [h.strand_of_none (List.getElem?_eq_none (Nat.le_refl _))]
      rfl
  walk j g' p' hj := by
    rcases joined hj with hj | ⟨rfl, ha⟩
    · exact h.walk j g' p' hj
    · obtain ⟨rfl, rfl⟩ := Singer.mk.inj ha
      exact ⟨fun hg => (by cases hg), fun hzero => absurd hzero (Nat.ne_of_gt h.begun)⟩
  begun := by simp
  known c hc := Nat.lt_of_lt_of_le (h.known c hc) (by simp)

/-- What others do beside the lists that are kept is borne by all singers. -/
theorem InTune.elsewhere (h : s.InTune X F D A R) (hw : World.Beside (Kept D R) s.world w') :
    InTune X F D A R { s with world := w' } where
  stands := ⟨h.stands.assembled.frame hw.toFrame fun _ _ => trivial,
    h.stands.keeps.beside hw (.inr (.inl rfl)) (.inr (.inr rfl))⟩
  fits j g' p' hj := by
    obtain ⟨L, hL, hfits⟩ := h.fits j g' p' hj
    exact ⟨L, hL, hfits.bears ((g'.role X D A).bears_beside (hw.mono fun _ => .inl)) []⟩
  walk := h.walk
  begun := h.begun
  known := h.known

/-- **What each step keeps.** Between two callbacks a singer does what its program says, which
settles where it stands next; all other steps leave its program where it is. -/
theorem InTune.step (h : s.InTune X F D A R) {i? : Option Nat} (hs : s.Step X F D R i? s') :
    s'.InTune X F D A R := by
  cases hs with
  | begins t text => exact h.joins t text
  | @goes i g v v' w' hi hsettles =>
    obtain ⟨L, hL, hfits⟩ := h.fits i g _ hi
    obtain ⟨v₁, w₁, hsettles', hdoes, hstands, hrests⟩ := (hfits.now h.stands).settles
    rw [Errand.role_thread] at hsettles'
    obtain ⟨rfl, rfl⟩ := hsettles.unique hsettles'
    exact h.put hi (h.bears hi hdoes) hstands ⟨L, hL, hrests⟩
  | @hears i g n next stack o w' l hi hR hanswers =>
    obtain ⟨w₁, l₁, hanswers', hstands, hbeside, -⟩ := h.told F (g.thread X) n
    obtain ⟨rfl, rfl⟩ := hanswers.unique hanswers'
    obtain ⟨L, hL, hfits⟩ := h.fits i g _ hi
    have htold : Audience.toldTo R.observer [(R.observer, n)] = [n] := by simp [Audience.toldTo]
    refine h.put hi (fun _ g' _ _ _ => (g'.role X D A).bears_beside hbeside) ?_ ?_
    · rw [htold]
      exact hstands
    · rw [htold]
      obtain ⟨L', rfl, hawaits⟩ := Cast.Rests.of_call hfits (Cast.occasion?_call hR n)
      exact ⟨L', hL, (hawaits .none).bears (Role.bears_beside _ hbeside) [n]⟩
  | @opens i g c x next stack hi hx hne =>
    obtain ⟨L, hL, hfits⟩ := h.fits i g _ hi
    obtain ⟨L', rfl, hawaits⟩ := Cast.Rests.of_call hfits hx
    exact h.put_same hi (Audience.toldTo_callback hne) ⟨L', hL, hawaits⟩
  | @closes i g next stack u hi =>
    obtain ⟨L, hL, hfits⟩ := h.fits i g _ hi
    exact h.put_same hi rfl ⟨L, hL, hfits u⟩
  | @ends i g o hi =>
    obtain ⟨L, hL, hfits⟩ := h.fits i g _ hi
    exact h.put_same hi rfl ⟨L, hL, Cast.Rests.of_done hfits⟩
  | @elsewhere w' hbeside => exact h.elsewhere hbeside

/-- **What holds at all times.** -/
theorem Runs.inTune (hs : Runs X F D R s s') (h : s.InTune X F D A R) : s'.InTune X F D A R := by
  induction hs with
  | refl => exact h
  | snoc _ hstep ih => exact ih.step hstep

end Choir

end GuardedWalk

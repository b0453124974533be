import GuardedWalk.Proofs.Walk.Audience

/-!
# What a recorder makes of several voices

A recorder does not know who tells it something. When several speak by turns, an end may be taken
for that of another's event. But each of them says of everything that it begins that it ends, and
not before it has begun; so nothing ever ends while no event is open, and when all of them have said
everything, no event is left open and each has ended as often as it has begun.

## Main definitions

* `GuardedWalk.Told.level` — how many events are open after some notices.
* `GuardedWalk.strand` — what comes from one of several sources.
* `GuardedWalk.Record.Tallies` — a recorder has noted ends of events that had begun.

## Main results

* `GuardedWalk.Balanced.level` — what is balanced leaves open what was open before.
* `GuardedWalk.countP_le_of_strand` — what holds of each source holds of all of them together.
* `GuardedWalk.Record.tallies_of_strand` — a recorder that is told things by several.
* `GuardedWalk.Record.Tallies.even` — when as much has ended as has begun, each event has.
-/

set_option autoImplicit false

namespace GuardedWalk

/-! ## Open events -/

namespace Told

/-- Whether something begins. -/
def begins : Told → Bool
  | before .. => true
  | after => false

/-- How many events begin. -/
def begun (l : List Told) : Nat := l.countP begins

/-- How many events end. -/
def ended (l : List Told) : Nat := l.countP fun n => !n.begins

/-- How many events are open after some notices, given how many were open before; none if one ends
while none is open. -/
def level : Nat → List Told → Option Nat
  | d, [] => some d
  | d, before .. :: rest => level (d + 1) rest
  | d + 1, after :: rest => level d rest
  | 0, after :: _ => none

theorem level_append (d : Nat) (l l' : List Told) :
    level d (l ++ l') = (level d l).bind fun d' => level d' l' := by
  induction l generalizing d with
  | nil => rfl
  | cons n rest ih =>
    cases n with
    | before e args => exact ih (d + 1)
    | after =>
      cases d with
      | zero => rfl
      | succ d => exact ih d

theorem level_replicate_before (e : Event) (args : List Value) (m d : Nat) :
    level d (List.replicate m (before e args)) = some (d + m) := by
  induction m generalizing d with
  | zero => rfl
  | succ m ih =>
    rw [List.replicate_succ, level, ih, Nat.add_assoc, Nat.add_comm 1 m]

theorem level_replicate_after (m d : Nat) :
    level (d + m) (List.replicate m after) = some d := by
  induction m with
  | zero => rfl
  | succ m ih => exact ih

/-- At no time has more ended than has begun or was open before. -/
theorem level_of_part {d d' : Nat} {l p : List Told} (h : level d l = some d') (hp : p <+: l) :
    ∃ d₁, level d p = some d₁ := by
  obtain ⟨l', rfl⟩ := hp
  rw [level_append] at h
  obtain ⟨d₁, hd₁, -⟩ := Option.bind_eq_some_iff.1 h
  exact ⟨d₁, hd₁⟩

theorem level_count {d d' : Nat} {l : List Told} (h : level d l = some d') :
    d + begun l = d' + ended l := by
  induction l generalizing d with
  | nil =>
    obtain rfl := Option.some.inj h
    rfl
  | cons n rest ih =>
    cases n with
    | before e args =>
      have := ih h
      simp only [begun, ended, List.countP_cons, begins] at this ⊢
      simp
      omega
    | after =>
      cases d with
      | zero => cases h
      | succ d =>
        have := ih h
        simp only [begun, ended, List.countP_cons, begins] at this ⊢
        simp
        omega

theorem begun_concat (l : List Told) (n : Told) :
    begun (l ++ [n]) = begun l + if n.begins then 1 else 0 := by
  simp [begun, List.countP_cons]

theorem ended_concat (l : List Told) (n : Told) :
    ended (l ++ [n]) = ended l + if n.begins then 0 else 1 := by
  cases n <;> simp [ended, begins]

end Told

namespace Audience

theorem toldTo_append_list (o : Ref .observer) (L L' : List Callback) :
    toldTo o (L ++ L') = toldTo o L ++ toldTo o L' := by
  simp [toldTo]

/-- An observer is told something as often as it is an observer. -/
theorem toldTo_toAll (X : Cast) (o : Ref .observer) (n : Told) :
    toldTo o (X.toAll n) = List.replicate (X.observers.count o) n := by
  simp only [toldTo, Cast.toAll, List.filter_map, List.map_map, Function.comp_def]
  rw [List.filter_eq, List.map_replicate]

end Audience

open Audience (toldTo)

/-- **What is balanced leaves open what was open before**, whoever is told of it. -/
theorem Balanced.level {ns : List Notice} (h : Balanced ns) (X : Cast) (o : Ref .observer)
    (d : Nat) : Told.level d (toldTo o (X.announced ns)) = some d := by
  induction h generalizing d with
  | nil => rfl
  | @around e args inner rest _ _ ih ih' =>
    simp only [Cast.announced_append, Cast.announced_around, Audience.toldTo_append_list,
      Audience.toldTo_toAll, Told.level_append, Told.level_replicate_before, Option.bind_some, ih,
      Told.level_replicate_after, ih']

/-! ## Several sources -/

section Strands

variable {β : Type}

/-- What comes from one of several sources. -/
def strand (i : Nat) (h : List (Nat × β)) : List β := (h.filter (·.1 = i)).map Prod.snd

theorem strand_append (i : Nat) (h h' : List (Nat × β)) :
    strand i (h ++ h') = strand i h ++ strand i h' := by
  simp [strand]

theorem strand_mono {h h' : List (Nat × β)} (hp : h <+: h') (i : Nat) :
    strand i h <+: strand i h' := (hp.filter _).map _

/-- What comes from all sources but one. -/
theorem strand_filter_ne (i j : Nat) (h : List (Nat × β)) :
    strand j (h.filter fun p => !decide (p.1 = i)) = if j = i then [] else strand j h := by
  unfold strand
  rw [List.filter_filter]
  split
  · rename_i hj
    subst hj
    simp
  · rename_i hj
    congr 2
    funext p
    by_cases hp : p.1 = j <;> simp [hp, hj]

/-- **What holds of each source holds of all of them together.** -/
theorem countP_le_of_strand (p q : β → Bool) (h : List (Nat × β))
    (hle : ∀ i, (strand i h).countP p ≤ (strand i h).countP q) :
    (h.map Prod.snd).countP p ≤ (h.map Prod.snd).countP q := by
  generalize hn : h.length = n
  -- by induction on how much there is, without one of the sources each time
  induction n using Nat.strongRecOn generalizing h with
  | ind n ih =>
    cases h with
    | nil => exact Nat.le_refl _
    | cons c rest =>
      let others := (c :: rest).filter fun p => !decide (p.1 = c.1)
      have hsplit : ∀ r : β → Bool, ((c :: rest).map Prod.snd).countP r =
          (strand c.1 (c :: rest)).countP r + (others.map Prod.snd).countP r := by
        intro r
        simp only [strand, List.countP_map]
        exact List.countP_eq_countP_filter_add _ _ _
      have hshort : others.length < n := by
        rw [← hn]
        exact List.length_filter_lt_length_iff_exists.2 ⟨c, List.mem_cons_self, by simp⟩
      have hothers := ih _ hshort others (fun j => by
        simp only [others, strand_filter_ne]
        split
        · exact Nat.le_refl _
        · exact hle j) rfl
      rw [hsplit p, hsplit q]
      exact Nat.add_le_add (hle c.1) hothers

end Strands

/-! ## What is noted -/

/-- A note says that an event begins or that it ends. -/
def Note.isAbout (word : Value) (e : Event) (n : Note) : Bool :=
  decide (n.word = word ∧ n.event = .event e)

namespace Record

/-- A recorder has noted ends of events that had begun, as many as it has been told. -/
structure Tallies (k : Record) (l : List Told) : Prop where
  length : k.opened.length + Told.ended l = Told.begun l
  opened : ∀ v ∈ k.opened, ∃ e : Event, v = .event e
  ends : ∀ n ∈ k.notes, n.word = Recording.afterWord → ∃ e : Event, n.event = .event e
  counts : ∀ e : Event, k.notes.countP (Note.isAbout Recording.beforeWord e) =
    k.notes.countP (Note.isAbout Recording.afterWord e) + k.opened.count (.event e)

variable {k : Record} {l : List Told}

theorem tallies_blank : Tallies blank [] where
  length := rfl
  opened := by simp [blank]
  ends := by simp [blank]
  counts _ := rfl

theorem afterWord_ne_beforeWord : Recording.afterWord ≠ Recording.beforeWord := by decide

/-- A recorder is told that an event begins. -/
theorem Tallies.hear_before (h : k.Tallies l) (e : Event) (args : List Value) :
    (k.hear (.before e args)).Tallies (l ++ [.before e args]) where
  length := by
    have hlength := h.length
    simp [Record.hear, Told.begun_concat, Told.ended_concat, Told.begins]
    omega
  opened v hv := by
    rcases List.mem_append.1 hv with hv | hv
    · exact h.opened v hv
    · exact ⟨e, List.mem_singleton.1 hv⟩
  ends n hn hword := by
    rcases List.mem_append.1 hn with hn | hn
    · exact h.ends n hn hword
    · rw [List.mem_singleton.1 hn] at hword
      exact absurd hword.symm afterWord_ne_beforeWord
  counts e' := by
    have hcounts := h.counts e'
    by_cases he : e = e' <;>
      simp [Record.hear, Note.isAbout, List.countP_append, List.count_append, he,
        afterWord_ne_beforeWord.symm] at hcounts ⊢ <;> omega

/-- A recorder is told that an event ends while one is open: the note is about the last of these. -/
theorem Tallies.hear_after (h : k.Tallies l) (hopen : k.opened ≠ []) :
    (k.hear .after).Tallies (l ++ [.after]) := by
  obtain ⟨xs, x, hlast⟩ : ∃ xs x, k.opened = xs ++ [x] :=
    ⟨_, _, (List.dropLast_concat_getLast hopen).symm⟩
  obtain ⟨e, rfl⟩ := h.opened x (by simp [hlast])
  refine ⟨?length, fun v hv => h.opened v (List.dropLast_subset _ hv), fun n hn hword => ?ends,
    fun e' => ?counts⟩
  case length =>
    have hlength := h.length
    simp [Record.hear, hlast, Told.begun_concat, Told.ended_concat, Told.begins] at hlength ⊢
    omega
  case ends =>
    rcases List.mem_append.1 hn with hn | hn
    · exact h.ends n hn hword
    · rw [List.mem_singleton.1 hn]
      exact ⟨e, by simp [hlast]⟩
  case counts =>
    have hcounts := h.counts e'
    by_cases he : e = e' <;>
      simp [Record.hear, Note.isAbout, List.countP_append, hlast, List.count_append, he,
        afterWord_ne_beforeWord] at hcounts ⊢ <;> omega

/-- A recorder is told one more thing. -/
theorem Tallies.hear (h : k.Tallies l) (n : Told)
    (hn : Told.ended (l ++ [n]) ≤ Told.begun (l ++ [n])) : (k.hear n).Tallies (l ++ [n]) := by
  cases n with
  | before e args => exact h.hear_before e args
  | after =>
    refine h.hear_after fun hnil => ?_
    have hlength := h.length
    simp [Told.begun_concat, Told.ended_concat, Told.begins, hnil] at hn hlength
    omega

/-- A recorder is told several things, and never of more ends than of beginnings. -/
theorem Tallies.hear_all (h : k.Tallies l) (l' : List Told)
    (hl : ∀ p, p <+: l' → Told.ended (l ++ p) ≤ Told.begun (l ++ p)) :
    (l'.foldl Record.hear k).Tallies (l ++ l') := by
  induction l' generalizing k l with
  | nil => simpa using h
  | cons n rest ih =>
    have hone := h.hear n (hl [n] (by simp))
    have hall := ih hone fun p hp => by
      rw [List.append_assoc]
      exact hl ([n] ++ p) (by simpa using hp)
    rwa [List.append_assoc] at hall

/-- **When as much has ended as has begun**, no event is open, and each has ended as often as it has
begun. -/
theorem Tallies.even (h : k.Tallies l) (hl : Told.ended l = Told.begun l) :
    k.opened = [] ∧ ∀ e : Event, k.notes.countP (Note.isAbout Recording.beforeWord e) =
      k.notes.countP (Note.isAbout Recording.afterWord e) := by
  have hnil : k.opened = [] := by
    have := h.length
    exact List.eq_nil_of_length_eq_zero (by omega)
  refine ⟨hnil, fun e => ?_⟩
  have := h.counts e
  rwa [hnil, List.count_nil, Nat.add_zero] at this

/-! ## Callbacks of several voices -/

section Voices

variable {o : Ref .observer} {made : List (Nat × Callback)}

theorem begun_toldTo (L : List Callback) :
    Told.begun (toldTo o L) = L.countP fun c => c.2.begins && decide (c.1 = o) := by
  rw [Told.begun, Audience.toldTo, List.countP_map, List.countP_filter]
  rfl

theorem ended_toldTo (L : List Callback) :
    Told.ended (toldTo o L) = L.countP fun c => !c.2.begins && decide (c.1 = o) := by
  rw [Told.ended, Audience.toldTo, List.countP_map, List.countP_filter]
  rfl

/-- No more has ended than has begun, if that is so for each of the voices. -/
theorem ended_le_begun (h : ∀ i, ∃ d, Told.level 0 (toldTo o (strand i made)) = some d) :
    Told.ended (toldTo o (made.map Prod.snd)) ≤ Told.begun (toldTo o (made.map Prod.snd)) := by
  rw [ended_toldTo, begun_toldTo]
  refine countP_le_of_strand _ _ made fun i => ?_
  obtain ⟨d, hd⟩ := h i
  have hcount := Told.level_count hd
  rw [← ended_toldTo, ← begun_toldTo]
  omega

/-- **A recorder that is told things by several voices** notes ends of events that had begun, if
each of them has begun what it ends. -/
theorem tallies_of_strand (h : ∀ i, ∃ d, Told.level 0 (toldTo o (strand i made)) = some d) :
    Tallies ((toldTo o (made.map Prod.snd)).foldl Record.hear blank)
      (toldTo o (made.map Prod.snd)) := by
  refine tallies_blank.hear_all _ fun p hp => ?_
  obtain ⟨L, hL, rfl⟩ := List.prefix_map_iff.1 hp
  obtain ⟨L', hL', rfl⟩ := List.prefix_filter_iff.1 hL
  obtain ⟨before, hbefore, rfl⟩ := List.prefix_map_iff.1 hL'
  refine ended_le_begun fun i => ?_
  obtain ⟨d, hd⟩ := h i
  exact Told.level_of_part hd (((strand_mono hbefore i).filter _).map _)

/-- If each of the voices has ended all that it has begun, so have all of them together. -/
theorem ended_eq_begun (h : ∀ i, Told.level 0 (toldTo o (strand i made)) = some 0) :
    Told.ended (toldTo o (made.map Prod.snd)) = Told.begun (toldTo o (made.map Prod.snd)) := by
  refine Nat.le_antisymm (ended_le_begun fun i => ⟨0, h i⟩) ?_
  rw [ended_toldTo, begun_toldTo]
  refine countP_le_of_strand _ _ made fun i => ?_
  have hcount := Told.level_count (h i)
  rw [← ended_toldTo, ← begun_toldTo]
  omega

end Voices

end Record

end GuardedWalk

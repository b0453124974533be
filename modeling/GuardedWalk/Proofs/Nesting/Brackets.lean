import GuardedWalk.Proofs.Walk.Recording
import Mathlib.Data.Set.Card

/-!
# Beginnings and ends as brackets

A recorder may be told anything, in any order: more may end than has begun, and events may be left
open. Beginnings and ends match like brackets all the same: an end belongs to a beginning if what is
told in between is balanced. The list of open events that a recorder keeps knows no positions, but
it is right about this: its last element is the event of the beginning to which an end that comes
next would belong, and there is one if the list is not empty.

## Main definitions

* `GuardedWalk.Told.Pairs` — an end belongs to a beginning.
* `GuardedWalk.Told.Unended` — no end belongs to a beginning.
* `GuardedWalk.Told.record` — what a recorder has noted that has been told some things.

## Main results

* `GuardedWalk.Told.Pairs.left_unique`, `right_unique` — one end belongs to one beginning.
* `GuardedWalk.Told.exists_innermost` — where the last of the open events has begun.
* `GuardedWalk.Told.event_of_end` — the event in a note of an end.
* `GuardedWalk.Told.ncard_unended` — as many events are open as beginnings are without an end.
-/

set_option autoImplicit false

namespace GuardedWalk

namespace Told

/-- Everything that begins ends, and what begins last ends first. -/
def IsBalanced (ts : List Told) : Prop := ∃ ns, Balanced ns ∧ ns.map Notice.told = ts

/-- An event begins at a position, and all that is told later is balanced: the event is the
innermost one that is open. -/
structure Innermost (ts : List Told) (i : Nat) : Prop where
  begins : ∃ e args, ts[i]? = some (.before e args)
  later : IsBalanced (ts.drop (i + 1))

/-- What begins at a position ends at another one: what is told in between is balanced. -/
structure Pairs (ts : List Told) (i j : Nat) : Prop where
  begins : ∃ e args, ts[i]? = some (.before e args)
  ends : ts[j]? = some .after
  before : i < j
  between : IsBalanced ((ts.take j).drop (i + 1))

/-- What begins at a position does not end. -/
structure Unended (ts : List Told) (i : Nat) : Prop where
  begins : ∃ e args, ts[i]? = some (.before e args)
  unpaired : ∀ j, ¬ Pairs ts i j

/-- What a recorder has noted that has been told some things. -/
def record (ts : List Told) : Record := ts.foldl Record.hear .blank

/-- The event that begins, with its arguments, if one does. -/
def opening? : Told → Option (Event × List Value)
  | .before e args => some (e, args)
  | .after => none

variable {ts pre inner post : List Told} {e : Event} {args : List Value} {i j : Nat} {n : Told}

theorem record_concat (ts : List Told) (n : Told) : record (ts ++ [n]) = (record ts).hear n := by
  simp [record]

@[simp] theorem length_notes (ts : List Told) : (record ts).notes.length = ts.length := by
  induction ts using List.reverseRecOn with
  | nil => rfl
  | append_singleton ts n ih => simp [record_concat, Record.hear_notes, ih]

/-- There is a note of everything that has been told, in order. -/
theorem notes_getElem? (h : ts[j]? = some n) :
    (record ts).notes[j]? = some ((record (ts.take j)).noteOf n) := by
  induction ts using List.reverseRecOn with
  | nil => simp at h
  | append_singleton ts m ih =>
    rw [record_concat, Record.hear_notes]
    rcases Nat.lt_trichotomy j ts.length with hj | rfl | hj
    · rw [List.getElem?_append_left hj] at h
      rw [List.getElem?_append_left (by simpa using hj), List.take_append_of_le_length hj.le]
      exact ih h
    · obtain rfl : m = n := by simpa using h
      rw [List.getElem?_append_right (by simp)]
      simp
    · rw [List.getElem?_eq_none (by simpa using hj)] at h
      cases h

/-- Every note is one of something that has been told. -/
theorem exists_told_of_mem_notes {m : Note} (h : m ∈ (record ts).notes) :
    ∃ j n, ts[j]? = some n ∧ m = (record (ts.take j)).noteOf n := by
  obtain ⟨j, hj, rfl⟩ := List.getElem_of_mem h
  have hlt : j < ts.length := by simpa using hj
  have hget := notes_getElem? (List.getElem?_eq_getElem hlt)
  rw [List.getElem?_eq_getElem hj] at hget
  exact ⟨j, _, List.getElem?_eq_getElem hlt, Option.some.inj hget⟩

/-! ## Balance -/

theorem IsBalanced.nil : IsBalanced [] := ⟨[], .nil, rfl⟩

theorem IsBalanced.append (h : IsBalanced inner) (h' : IsBalanced post) :
    IsBalanced (inner ++ post) := by
  obtain ⟨ns, hns, rfl⟩ := h
  obtain ⟨ns', hns', rfl⟩ := h'
  exact ⟨ns ++ ns', hns.append hns', List.map_append⟩

theorem IsBalanced.around (h : IsBalanced inner) (e : Event) (args : List Value) :
    IsBalanced (.before e args :: inner ++ [.after]) := by
  obtain ⟨ns, hns, rfl⟩ := h
  exact ⟨_, .around e args hns .nil, by simp [GuardedWalk.around, Notice.told]⟩

/-- What is balanced leaves open what was open before. -/
theorem IsBalanced.opened (h : IsBalanced inner) (k : Record) :
    (inner.foldl Record.hear k).opened = k.opened := by
  obtain ⟨ns, hns, rfl⟩ := h
  rw [hns.record]

/-- Nothing ends in what is balanced that has not begun there. -/
theorem IsBalanced.not_left (h : IsBalanced (inner ++ .after :: post)) : ¬ IsBalanced inner := by
  intro hinner
  have hend : (inner ++ .after :: post)[inner.length]? = some .after := by simp
  have hnote := notes_getElem? hend
  obtain ⟨ns, hns, hmap⟩ := h
  have hopened : (record inner).opened = [] := hinner.opened .blank
  have hnotes : (record (inner ++ .after :: post)).notes = ns.map Notice.note := by
    rw [← hmap, record, hns.record]
    rfl
  -- as part of what is balanced the end has been noted with an event, but none is open there
  rw [hnotes, List.getElem?_map, List.take_left, Record.noteOf, hopened] at hnote
  obtain ⟨n, -, hn⟩ := Option.map_eq_some_iff.1 hnote
  have hevent : n.note.event = .none := congrArg Note.event hn
  cases n <;> cases hevent

/-- If something is balanced that begins later, then what has begun before has not ended. -/
theorem IsBalanced.not_right (h : IsBalanced (pre ++ .before e args :: inner)) :
    ¬ IsBalanced inner := by
  intro hinner
  have hopened := h.opened .blank
  rw [List.foldl_append, List.foldl_cons, hinner.opened] at hopened
  simp [Record.hear, Record.blank] at hopened

/-! ## The innermost open event -/

theorem innermost_iff : Innermost ts i ↔ ∃ pre e args inner,
    ts = pre ++ .before e args :: inner ∧ pre.length = i ∧ IsBalanced inner := by
  constructor
  · rintro ⟨⟨e, args, hbegins⟩, hlater⟩
    obtain ⟨hi, hget⟩ := List.getElem?_eq_some_iff.1 hbegins
    refine ⟨ts.take i, e, args, ts.drop (i + 1), ?_, List.length_take_of_le hi.le, hlater⟩
    rw [← hget, List.cons_getElem_drop_succ, List.take_append_drop]
  · rintro ⟨pre, e, args, inner, rfl, rfl, hinner⟩
    exact ⟨⟨e, args, by simp⟩, by simpa [List.drop_append, List.drop_eq_nil_of_le] using hinner⟩

theorem pairs_iff : Pairs ts i j ↔ ts[j]? = some .after ∧ Innermost (ts.take j) i := by
  constructor
  · rintro ⟨⟨e, args, hbegins⟩, hends, hlt, hbetween⟩
    exact ⟨hends, ⟨e, args, by rw [List.getElem?_take_of_lt hlt, hbegins]⟩, hbetween⟩
  · rintro ⟨hends, ⟨e, args, hbegins⟩, hbetween⟩
    have hlt : i < j := by
      by_contra hle
      rw [List.getElem?_take_eq_none (Nat.le_of_not_lt hle)] at hbegins
      cases hbegins
    rw [List.getElem?_take_of_lt hlt] at hbegins
    exact ⟨⟨e, args, hbegins⟩, hends, hlt, hbetween⟩

/-- The innermost open event is the last one that a recorder holds to be open. -/
theorem Innermost.opened (h : Innermost ts i) (hi : ts[i]? = some (.before e args)) :
    (record ts).opened = (record (ts.take i)).opened ++ [.event e] := by
  obtain ⟨pre, e', args', inner, rfl, rfl, hinner⟩ := innermost_iff.1 h
  simp only [List.getElem?_append_right (Nat.le_refl _), Nat.sub_self, List.getElem?_cons_zero,
    Option.some.injEq, Told.before.injEq] at hi
  obtain ⟨rfl, rfl⟩ := hi
  rw [List.take_left, record, List.foldl_append, List.foldl_cons, hinner.opened]
  rfl

/-- Not more than one event is the innermost. -/
theorem Innermost.unique (h : Innermost ts i) (h' : Innermost ts j) : i = j := by
  -- the later of the two would be open in what is balanced after the earlier one
  have hle : ∀ {i j}, Innermost ts i → Innermost ts j → ¬ i < j := by
    intro i j h h' hlt
    obtain ⟨⟨e, args, hbegins⟩, hlater⟩ := h'
    obtain ⟨hj, hget⟩ := List.getElem?_eq_some_iff.1 hbegins
    obtain ⟨d, rfl⟩ := Nat.exists_eq_add_of_lt hlt
    have hsplit : ts.drop (i + 1) =
        (ts.drop (i + 1)).take d ++ .before e args :: ts.drop (i + d + 1 + 1) := by
      rw [← hget, List.cons_getElem_drop_succ]
      conv_lhs => rw [← List.take_append_drop d (ts.drop (i + 1)), List.drop_drop]
      rw [show i + 1 + d = i + d + 1 by omega]
    have hbalanced := h.later
    rw [hsplit] at hbalanced
    exact hbalanced.not_right hlater
  exact Nat.le_antisymm (Nat.le_of_not_lt (hle h' h)) (Nat.le_of_not_lt (hle h h'))

/-- The innermost open event has not ended. -/
theorem Innermost.unended (h : Innermost ts i) : Unended ts i := by
  refine ⟨h.begins, fun j hj => ?_⟩
  obtain ⟨hlt, hget⟩ := List.getElem?_eq_some_iff.1 hj.ends
  have hsplit : ts.drop (i + 1) = (ts.take j).drop (i + 1) ++ .after :: ts.drop (j + 1) := by
    have hle : i + 1 ≤ (ts.take j).length := by
      rw [List.length_take_of_le hlt.le]
      exact hj.before
    conv_lhs => rw [← List.take_append_drop j ts, ← List.cons_getElem_drop_succ (h := hlt), hget]
    exact List.drop_append_of_le_length hle
  have hbalanced := h.later
  rw [hsplit] at hbalanced
  exact hbalanced.not_left hj.between

/-- An end belongs to one beginning only. -/
theorem Pairs.left_unique {i' : Nat} (h : Pairs ts i j) (h' : Pairs ts i' j) : i = i' :=
  (pairs_iff.1 h).2.unique (pairs_iff.1 h').2

/-- To a beginning belongs one end only. -/
theorem Pairs.right_unique {j' : Nat} (h : Pairs ts i j) (h' : Pairs ts i j') : j = j' := by
  -- what has ended before the later of two ends is not open there
  have hle : ∀ {j j'}, Pairs ts i j → Pairs ts i j' → ¬ j < j' := by
    intro j j' h h' hlt
    obtain ⟨e, args, hbegins⟩ := h.begins
    refine (pairs_iff.1 h').2.unended.unpaired j ⟨⟨e, args, ?_⟩, ?_, h.before, ?_⟩
    · rw [List.getElem?_take_of_lt h'.before, hbegins]
    · rw [List.getElem?_take_of_lt hlt, h.ends]
    · rw [List.take_take, Nat.min_eq_left hlt.le]
      exact h.between
  exact Nat.le_antisymm (Nat.le_of_not_lt (hle h' h)) (Nat.le_of_not_lt (hle h h'))

/-- **Where the last of the open events has begun**: nothing that has begun later is open. -/
theorem exists_innermost {vs : List Value} {v : Value} (h : (record ts).opened = vs ++ [v]) :
    ∃ pre e args inner, ts = pre ++ .before e args :: inner ∧ IsBalanced inner ∧
      v = .event e ∧ (record pre).opened = vs := by
  induction hlen : ts.length using Nat.strongRecOn generalizing ts vs v with
  | ind len ih =>
    subst hlen
    rcases List.eq_nil_or_concat ts with rfl | ⟨ts, n, rfl⟩
    · simp [record, Record.blank] at h
    rw [List.concat_eq_append] at h ih ⊢
    rw [record_concat] at h
    cases n with
    | before e args =>
      obtain ⟨hvs, hv⟩ := List.append_inj' h rfl
      exact ⟨ts, e, args, [], rfl, .nil, (List.singleton_inj.1 hv).symm, hvs⟩
    | after =>
      -- the event that ends is the innermost one, and `v` is the innermost one before it began
      have hopened : (record ts).opened.dropLast = vs ++ [v] := h
      have hne : (record ts).opened ≠ [] := by
        intro hnil
        rw [hnil] at hopened
        simp at hopened
      have hlast := List.dropLast_append_getLast hne
      rw [hopened] at hlast
      obtain ⟨pre, e, args, inner, rfl, hinner, -, hpre⟩ := ih _ (by simp) hlast.symm rfl
      obtain ⟨pre', e', args', inner', rfl, hinner', hv, hpre'⟩ := ih _ (by simp) hpre rfl
      refine ⟨pre', e', args', inner' ++ (.before e args :: inner ++ [.after]), by simp, ?_, hv,
        hpre'⟩
      exact hinner'.append (hinner.around e args)

theorem exists_innermost_of_opened (h : (record ts).opened ≠ []) : ∃ i, Innermost ts i := by
  obtain ⟨pre, e, args, inner, hts, hinner, -, -⟩ :=
    exists_innermost (List.dropLast_append_getLast h).symm
  exact ⟨_, innermost_iff.2 ⟨pre, e, args, inner, hts, rfl, hinner⟩⟩

theorem not_innermost_of_opened (h : (record ts).opened = []) (i : Nat) : ¬ Innermost ts i := by
  intro hi
  obtain ⟨e, args, hbegins⟩ := hi.begins
  simp [hi.opened hbegins] at h

/-! ## The event that ends -/

/-- **The event in a note of an end** is the one whose beginning the end belongs to, and it is none
only if the end belongs to no beginning. -/
theorem event_of_end (h : ts[j]? = some .after) :
    ∃ v, (record ts).notes[j]? = some ⟨Recording.afterWord, v, none⟩ ∧
      (∀ e, v = .event e ↔ ∃ i args, Pairs ts i j ∧ ts[i]? = some (.before e args)) ∧
      (v = .none ↔ ∀ i, ¬ Pairs ts i j) := by
  refine ⟨_, notes_getElem? h, ?_⟩
  by_cases hopened : (record (ts.take j)).opened = []
  · have hnone : ∀ i, ¬ Pairs ts i j := fun i hp =>
      not_innermost_of_opened hopened i (pairs_iff.1 hp).2
    rw [hopened]
    refine ⟨fun e => ⟨nofun, ?_⟩, fun _ => hnone, fun _ => rfl⟩
    rintro ⟨i, args, hp, -⟩
    exact absurd hp (hnone i)
  · obtain ⟨i, hi⟩ := exists_innermost_of_opened hopened
    have hp : Pairs ts i j := pairs_iff.2 ⟨h, hi⟩
    obtain ⟨e, args, hbegins⟩ := hi.begins
    have hget : ts[i]? = some (.before e args) := by
      rw [← hbegins, List.getElem?_take_of_lt hp.before]
    rw [hi.opened hbegins]
    simp only [List.getLast?_concat, Option.getD_some, Value.event.injEq, reduceCtorEq, false_iff,
      not_forall, not_not]
    refine ⟨fun e' => ⟨?_, ?_⟩, i, hp⟩
    · rintro rfl
      exact ⟨i, args, hp, hget⟩
    · rintro ⟨i', args', hp', hget'⟩
      obtain rfl := hp.left_unique hp'
      rw [hget] at hget'
      exact (Told.before.inj (Option.some.inj hget')).1

/-! ## Events that do not end -/

theorem pairs_concat : Pairs (ts ++ [n]) i j ↔
    Pairs ts i j ∨ n = .after ∧ j = ts.length ∧ Innermost ts i := by
  rw [pairs_iff, pairs_iff]
  rcases Nat.lt_trichotomy j ts.length with hj | rfl | hj
  · rw [List.getElem?_append_left hj, List.take_append_of_le_length hj.le]
    simp [hj.ne]
  · simp
  · rw [List.getElem?_eq_none (by simpa using hj), List.getElem?_eq_none hj.le]
    simp [hj.ne']

theorem finite_unended (ts : List Told) : {i | Unended ts i}.Finite := by
  refine (Set.finite_lt_nat ts.length).subset ?_
  rintro i ⟨⟨e, args, hbegins⟩, -⟩
  exact (List.getElem?_eq_some_iff.1 hbegins).1

/-- What has begun and not ended after one more event has begun. -/
theorem unended_concat_before (ts : List Told) (e : Event) (args : List Value) :
    {i | Unended (ts ++ [.before e args]) i} = insert ts.length {i | Unended ts i} := by
  ext i
  simp only [Set.mem_ofPred_eq, Set.mem_insert_iff]
  have hpairs : ∀ j, Pairs (ts ++ [.before e args]) i j ↔ Pairs ts i j := by simp [pairs_concat]
  constructor
  · rintro ⟨⟨e', args', hbegins⟩, hopen⟩
    rcases Nat.lt_or_ge i ts.length with hi | hi
    · rw [List.getElem?_append_left hi] at hbegins
      exact .inr ⟨⟨e', args', hbegins⟩, fun j hj => hopen j ((hpairs j).2 hj)⟩
    · have hlt := (List.getElem?_eq_some_iff.1 hbegins).1
      simp only [List.length_append, List.length_singleton] at hlt
      exact .inl (by omega)
  · rintro (rfl | ⟨⟨e', args', hbegins⟩, hopen⟩)
    · refine ⟨⟨e, args, by simp⟩, fun j hj => ?_⟩
      obtain ⟨e', args', hbegins⟩ := ((hpairs j).1 hj).begins
      simp at hbegins
    · have hlt := (List.getElem?_eq_some_iff.1 hbegins).1
      exact ⟨⟨e', args', by rw [List.getElem?_append_left hlt, hbegins]⟩,
        fun j hj => hopen j ((hpairs j).1 hj)⟩

/-- What has begun and not ended after one more event has ended. -/
theorem unended_concat_after (ts : List Told) :
    {i | Unended (ts ++ [.after]) i} = {i | Unended ts i} \ {i | Innermost ts i} := by
  ext i
  simp only [Set.mem_ofPred_eq, Set.mem_sdiff]
  constructor
  · rintro ⟨⟨e, args, hbegins⟩, hopen⟩
    have hlt : i < ts.length := by
      by_contra hle
      rw [List.getElem?_append_right (Nat.le_of_not_lt hle)] at hbegins
      have := List.mem_of_getElem? hbegins
      simp at this
    rw [List.getElem?_append_left hlt] at hbegins
    exact ⟨⟨⟨e, args, hbegins⟩, fun j hj => hopen j (pairs_concat.2 (.inl hj))⟩,
      fun hi => hopen _ (pairs_concat.2 (.inr ⟨rfl, rfl, hi⟩))⟩
  · rintro ⟨⟨⟨e, args, hbegins⟩, hopen⟩, hi⟩
    have hlt := (List.getElem?_eq_some_iff.1 hbegins).1
    refine ⟨⟨e, args, by rw [List.getElem?_append_left hlt, hbegins]⟩, fun j hj => ?_⟩
    rcases pairs_concat.1 hj with hj | ⟨-, -, hinnermost⟩
    · exact hopen j hj
    · exact hi hinnermost

/-- **As many events are open as beginnings are without an end.** -/
theorem ncard_unended (ts : List Told) : {i | Unended ts i}.ncard = (record ts).opened.length := by
  induction ts using List.reverseRecOn with
  | nil =>
    have hempty : {i | Unended [] i} = ∅ := by
      refine Set.eq_empty_of_forall_notMem ?_
      rintro i ⟨⟨e, args, hbegins⟩, -⟩
      simp at hbegins
    simp [hempty, record, Record.blank]
  | append_singleton ts n ih =>
    rw [record_concat]
    cases n with
    | before e args =>
      have hnew : ts.length ∉ {i | Unended ts i} := by
        rintro ⟨⟨e', args', hbegins⟩, -⟩
        simp at hbegins
      rw [unended_concat_before, Set.ncard_insert_of_notMem hnew (finite_unended ts), ih]
      simp [Record.hear]
    | after =>
      rw [unended_concat_after]
      by_cases hopened : (record ts).opened = []
      · have hnone : {i | Innermost ts i} = ∅ :=
          Set.eq_empty_of_forall_notMem (not_innermost_of_opened hopened)
        simp [hnone, ih, Record.hear, hopened]
      · obtain ⟨i, hi⟩ := exists_innermost_of_opened hopened
        have hone : {i | Innermost ts i} = {i} :=
          Set.eq_singleton_iff_unique_mem.2 ⟨hi, fun _ hi' => hi'.unique hi⟩
        have hmem : i ∈ {i | Unended ts i} := hi.unended
        rw [hone, Set.ncard_sdiff_singleton_of_mem hmem, ih]
        simp [Record.hear]

end Told

end GuardedWalk

import GuardedWalk.Proofs.Copying.Errors

/-!
# What a deep copy comes across

A deep copy that succeeds has come across all that a value contains: when it has remembered a node
or a list, it has remembered all that these hold as well. Errors about foreign traversal are never
remembered, since they cannot be made again. So nothing that contains one is copied, however large
it is, whatever else lies in it and whether or not it leads back to itself.

## Main definitions

* `GuardedWalk.World.PassesOn`, `Contains` — what nodes and lists hold, straight away and at all.
* `GuardedWalk.Copying.Closes` — more is remembered, with all that it holds.
* `GuardedWalk.Copying.Thorough` — a way to copy values that comes across all that they contain.
* `GuardedWalk.Copying.Copied` — what holds when an object has been copied.

## Main results

* `GuardedWalk.Copying.thorough_deepWithin` — a deep copy is thorough.
* `GuardedWalk.Copying.deep_fails` — what contains an error about foreign traversal is not copied.
-/

set_option autoImplicit false

namespace GuardedWalk

namespace World

variable {ε : Type}

/-- A node passes on its attributes to a copy, and a list its elements. -/
inductive PassesOn (w : World ε) : Value → Value → Prop where
  | field {r : Ref .node} {name : String} {x : Value}
    (among : (name, x) ∈ (w.nodes.get r).unguarded) : PassesOn w (.node r) x
  | item {l : Ref .list} {x : Value} (among : x ∈ w.items l) : PassesOn w (.list l) x

/-- A value contains another one, at whatever remove: it is the value itself, or a node or a list in
it contains it. -/
def Contains (w : World ε) : Value → Value → Prop := Relation.ReflTransGen w.PassesOn

end World

namespace Copying

open Act

variable {ε : Type} {b w w' w'' : World ε} {m m' m'' : Memo Value}
  {copy : Value → Duplicating ε Value}

/-- Nodes, lists and exceptions. -/
def isTracked : Value → Bool
  | .node _ | .list _ | .exception _ => true
  | _ => false

theorem Adds.passes (h : Adds b w) {u x : Value} (hx : b.PassesOn u x) : w.PassesOn u x := by
  cases hx with
  | @field r name x among =>
    have hstored : r.index < b.nodes.cells.size := by
      refine Nat.lt_of_not_le fun hle => ?_
      rw [Store.get_of_le hle] at among
      cases among
    have hsame : w.nodes.get r = b.nodes.get r := h.nodes.2 r hstored
    exact .field (hsame ▸ among)
  | @item l x among =>
    have hstored : l.index < b.lists.cells.size := by
      refine Nat.lt_of_not_le fun hle => ?_
      rw [World.items, Store.get_of_le hle] at among
      cases among
    have hsame : w.lists.get l = b.lists.get l := h.lists.2 l hstored
    exact .item (by rwa [World.items, hsame])

theorem Adds.refuses (h : Adds b w) {r : Ref .exception} {message : String}
    (hr : b.Refuses r message) : w.Refuses r message := by
  have hstored : r.index < b.exceptions.cells.size := by
    refine Nat.lt_of_not_le fun hle => ?_
    have hcls := hr.cls
    rw [Store.get_of_le hle] at hcls
    cases hcls
  have hsame : w.exceptions.get r = b.exceptions.get r := h.exceptions.2 r hstored
  have hrow : (b.exceptions.get r).args.index < b.tuples.cells.size := by
    refine Nat.lt_of_not_le fun hle => ?_
    have hargs := hr.args
    rw [World.argsOf, World.row, Store.get_of_le hle] at hargs
    cases hargs
  refine ⟨by rw [hsame, hr.cls], ?_⟩
  rw [World.argsOf, hsame, World.row,
    show w.tuples.get (b.exceptions.get r).args = b.tuples.get (b.exceptions.get r).args from
      h.tuples.2 _ hrow]
  exact hr.args

/-- More is remembered, and with each node and list that is, all that it passes on and that is
tracked. Some values are not among it. -/
structure Closes (b : World ε) (P : Value → Prop) {α : Type} (m m' : Memo α) : Prop where
  keeps : ∀ u, (m.find? u).isSome = true → (m'.find? u).isSome = true
  closed : ∀ u x, m.find? u = none → (m'.find? u).isSome = true → b.PassesOn u x →
    isTracked x = true → (m'.find? x).isSome = true
  spared : ∀ u, P u → m.find? u = none → m'.find? u = none

theorem Closes.refl {α : Type} (b : World ε) (P : Value → Prop) (m : Memo α) : Closes b P m m :=
  ⟨fun _ h => h, fun u _ h h' => by simp [h] at h', fun _ _ h => h⟩

theorem Closes.trans {α : Type} {P : Value → Prop} {m m' m'' : Memo α} (h : Closes b P m m')
    (h' : Closes b P m' m'') : Closes b P m m'' where
  keeps u hu := h'.keeps u (h.keeps u hu)
  closed u x hu hu'' hx ht := by
    cases hm : m'.find? u with
    | none => exact h'.closed u x hm hu'' hx ht
    | some c => exact h'.keeps x (h.closed u x hu (by simp [hm]) hx ht)
  spared u hu hm := h'.spared u hu (h.spared u hu hm)

/-- An object is remembered, and what it passes on is remembered later. -/
theorem Closes.insert {α : Type} {P : Value → Prop} {m m' : Memo α} {v : Value} {c : α}
    (h : Closes b P (m.insert v c) m')
    (hv : ∀ x, b.PassesOn v x → isTracked x = true → (m'.find? x).isSome = true) (hP : ¬ P v) :
    Closes b P m m' where
  keeps u hu := by
    refine h.keeps u ?_
    rw [Memo.find?_insert]
    split
    · rfl
    · exact hu
  closed u x hu hu' hx ht := by
    by_cases huv : u = v
    · exact hv x (huv ▸ hx) ht
    · exact h.closed u x (by rw [Memo.find?_insert, if_neg huv, hu]) hu' hx ht
  spared u hu hm := by
    refine h.spared u hu ?_
    rw [Memo.find?_insert, if_neg, hm]
    rintro rfl
    exact hP hu

/-- An object is remembered that passes nothing on. -/
theorem Closes.leaf {α : Type} {P : Value → Prop} {m : Memo α} {v : Value} {c : α}
    (hv : ∀ x, ¬ b.PassesOn v x) (hP : ¬ P v) : Closes b P m (m.insert v c) :=
  (Closes.refl b P _).insert (fun x hx => absurd hx (hv x)) hP

/-- A value is an error about foreign traversal. -/
def IsRefusal (b : World ε) (v : Value) : Prop :=
  ∃ r message, v = .exception r ∧ b.Refuses r message

theorem not_isRefusal {v : Value} (h : ∀ r, v ≠ .exception r) : ¬ IsRefusal b v :=
  fun ⟨r, _, hr, _⟩ => h r hr

/-- Something copies values, and whenever it succeeds, it has only added, and all that a value
passes on has been copied with it. -/
def Thorough (b : World ε) (copy : Value → Duplicating ε Value) : Prop :=
  ∀ m w v c m' w', Adds b w → Does (copy v) m w c m' w' →
    Adds b w' ∧ Closes b (IsRefusal b) m m' ∧ (isTracked v = true → (m'.find? v).isSome = true) ∧
      ∀ s, v = .text s → c = v

theorem Thorough.all (hcopy : Thorough b copy) :
    ∀ vs m w cs m' w', Adds b w → Does (copyAll copy vs) m w cs m' w' →
      Adds b w' ∧ Closes b (IsRefusal b) m m' ∧
        (∀ v ∈ vs, isTracked v = true → (m'.find? v).isSome = true) ∧
        ∀ s, vs = [.text s] → cs = vs
  | [], m, w, cs, m', w', hw, h => by
    obtain ⟨rfl, rfl, rfl⟩ := does_pure.1 h
    exact ⟨hw, .refl b _ m, by simp, by simp⟩
  | v :: rest, m, w, cs, m', w', hw, h => by
    simp only [copyAll, does_bind, does_pure] at h
    obtain ⟨c, m₁, w₁, hfirst, cs', m₂, w₂, hrest, rfl, rfl, rfl⟩ := h
    obtain ⟨hw₁, hm₁, hv, htext⟩ := hcopy m w v c m₁ w₁ hw hfirst
    obtain ⟨hw₂, hm₂, hall, -⟩ := hcopy.all rest m₁ w₁ cs' m₂ w₂ hw₁ hrest
    refine ⟨hw₂, hm₁.trans hm₂, ?_, ?_⟩
    · rintro u (_ | ⟨_, hu⟩) ht
      · exact hm₂.keeps _ (hv ht)
      · exact hall u hu ht
    · rintro s hs
      obtain ⟨rfl, rfl⟩ := List.cons.inj hs
      obtain ⟨rfl, -⟩ := does_pure.1 hrest
      rw [htext s rfl]

theorem Thorough.attributes (hcopy : Thorough b copy) {a a' : Attributes} (hw : Adds b w)
    (h : Does (copyAttributes copy a) m w a' m' w') :
    Adds b w' ∧ Closes b (IsRefusal b) m m' ∧
      ∀ p ∈ a, isTracked p.2 = true → (m'.find? p.2).isSome = true := by
  simp only [copyAttributes, does_bind, does_pure] at h
  obtain ⟨cs, m₁, w₁, hall, -, rfl, rfl⟩ := h
  obtain ⟨hw₁, hm₁, hall, -⟩ := hcopy.all _ m w cs m₁ w₁ hw hall
  exact ⟨hw₁, hm₁, fun p hp => hall p.2 (List.mem_map_of_mem hp)⟩

theorem Thorough.items (hcopy : Thorough b copy) {l : Ref .list}
    (hl : b.lists.cells.size ≤ l.index) :
    ∀ vs m w u m' w', Adds b w → Does (copyItems copy l vs) m w u m' w' →
      Adds b w' ∧ Closes b (IsRefusal b) m m' ∧
        ∀ v ∈ vs, isTracked v = true → (m'.find? v).isSome = true
  | [], m, w, _, m', w', hw, h => by
    obtain ⟨-, rfl, rfl⟩ := does_pure.1 h
    exact ⟨hw, .refl b _ m, by simp⟩
  | v :: rest, m, w, u, m', w', hw, h => by
    simp only [copyItems, does_bind, does_lift, run_change_ok] at h
    obtain ⟨c, m₁, w₁, hfirst, _, _, _, ⟨rfl, rfl⟩, hrest⟩ := h
    obtain ⟨hw₁, hm₁, hv, -⟩ := hcopy m w v c m₁ w₁ hw hfirst
    obtain ⟨hw₂, hm₂, hall⟩ := hcopy.items hl rest m₁ _ u m' w' (hw₁.push hl c) hrest
    refine ⟨hw₂, hm₁.trans hm₂, ?_⟩
    rintro u (_ | ⟨_, hu⟩) ht
    · exact hm₂.keeps _ (hv ht)
    · exact hall u hu ht

theorem Thorough.pairs (hcopy : Thorough b copy) {d : Ref .dictionary} :
    ∀ ps m w u m' w', Adds b w → Does (copyPairs copy d ps) m w u m' w' →
      Adds b w' ∧ Closes b (IsRefusal b) m m'
  | [], m, w, _, m', w', hw, h => by
    obtain ⟨-, rfl, rfl⟩ := does_pure.1 h
    exact ⟨hw, .refl b _ m⟩
  | (key, v) :: rest, m, w, u, m', w', hw, h => by
    simp only [copyPairs, does_bind, does_lift, run_change_ok] at h
    obtain ⟨c, m₁, w₁, hvalue, k, m₂, w₂, hkey, _, _, _, ⟨rfl, rfl⟩, hrest⟩ := h
    obtain ⟨hw₁, hm₁, -⟩ := hcopy m w v c m₁ w₁ hw hvalue
    obtain ⟨hw₂, hm₂, -⟩ := hcopy m₁ w₁ key k m₂ w₂ hw₁ hkey
    have hput : Adds b (w₂.put d k c) := ⟨hw₂.nodes, hw₂.lists, hw₂.tuples, hw₂.exceptions⟩
    obtain ⟨hw₃, hm₃⟩ := hcopy.pairs rest m₂ _ u m' w' hput hrest
    exact ⟨hw₃, (hm₁.trans hm₂).trans hm₃⟩

/-- What holds when an object has been copied: the world has only been added to, and all that the
object passes on has been copied with it. -/
structure Copied (b : World ε) (v : Value) (m m' : Memo Value) (w' : World ε) : Prop where
  adds : Adds b w'
  closes : Closes b (IsRefusal b) m m'
  isRemembered : isTracked v = true → (m'.find? v).isSome = true

/-- An object of which a blank one is made, with attributes of its own. -/
theorem Thorough.object (hcopy : Thorough b copy) {v : Value} {c : Value}
    (hv : ∀ r, v ≠ .exception r) (hl : ∀ l, v ≠ .list l) (hw : Adds b w)
    (h : Does ((do
      let attributes ← (see (handedOn · v) : Act ε _)
      let object ← (blank v : Act ε _)
      remember v object
      let attributes ← copyAttributes copy attributes
      (restore object attributes : Act ε _)
      return object) : Duplicating ε Value) m w c m' w') : Copied b v m m' w' := by
  simp only [does_bind, does_lift, run_see_ok, remember, does_modify, restore, run_change_ok,
    does_pure] at h
  obtain ⟨_, _, _, ⟨⟨rfl, rfl⟩, rfl⟩, x, _, w₁, ⟨hblank, rfl⟩, _, _, _, ⟨rfl, rfl⟩, a, m₂, w₂,
    hattributes, _, _, _, ⟨rfl, rfl⟩, rfl, rfl, rfl⟩ := h
  obtain ⟨hw₁, hx⟩ := blank_adds hv hblank
  obtain ⟨hw₂, hm₂, hall⟩ := hcopy.attributes (hw.trans hw₁) hattributes
  refine ⟨hw₂.modifyOwn (hx.before hw) _, hm₂.insert (fun y hy ht => ?_) (not_isRefusal hv),
    fun _ => hm₂.keeps v (by simp [Memo.find?_insert])⟩
  cases hw.passes hy with
  | @field r name _ among => exact hall (name, y) among ht
  | item => exact absurd rfl (hl _)

theorem Thorough.list (hcopy : Thorough b copy) {l : Ref .list} {c : Value} (hw : Adds b w)
    (h : Does (copyObject copy (.list l)) m w c m' w') : Copied b (.list l) m m' w' := by
  simp only [Copying.copyObject, does_bind, does_lift, run_see_ok, run_make_ok, remember,
    does_modify, does_pure] at h
  obtain ⟨_, _, _, ⟨⟨rfl, rfl⟩, rfl⟩, s, _, w₁, ⟨hmake, rfl⟩, _, _, _, ⟨rfl, rfl⟩, _, m₂, w₂,
    hitems, rfl, rfl, rfl⟩ := h
  cases hmake
  obtain ⟨hw₂, hm₂, hall⟩ := hcopy.items hw.lists.1 _ _ _ _ _ _
    (hw.trans (adds_storeList w [])) hitems
  refine ⟨hw₂, hm₂.insert (fun y hy ht => ?_) (not_isRefusal (by simp)),
    fun _ => hm₂.keeps _ (by simp [Memo.find?_insert])⟩
  cases hw.passes hy with
  | item among => exact hall y among ht

theorem Thorough.tuple (hcopy : Thorough b copy) {t : Ref .tuple} {c : Value} (hw : Adds b w)
    (h : Does (copyObject copy (.tuple t)) m w c m' w') : Copied b (.tuple t) m m' w' := by
  simp only [Copying.copyObject, does_bind, does_lift, run_see_ok, recalled?, does_get,
    does_pure] at h
  obtain ⟨_, _, _, ⟨⟨rfl, rfl⟩, rfl⟩, cs, m₁, w₁, hall, found, _, _, ⟨_, _, _, ⟨rfl, rfl, rfl⟩,
    rfl, rfl, rfl⟩, h⟩ := h
  obtain ⟨hw₁, hm₁, -⟩ := hcopy.all _ m w cs m₁ w₁ hw hall
  split at h
  · obtain ⟨-, rfl, rfl⟩ := does_pure.1 h
    exact ⟨hw₁, hm₁, by simp [isTracked]⟩
  · split at h
    · obtain ⟨-, rfl, rfl⟩ := does_pure.1 h
      exact ⟨hw₁, hm₁, by simp [isTracked]⟩
    · simp only [does_bind, does_lift, addTuple, run_make_ok, remember, does_modify,
        does_pure] at h
      obtain ⟨row, _, w₂, ⟨hmake, rfl⟩, _, _, _, ⟨rfl, rfl⟩, rfl, rfl, rfl⟩ := h
      cases hmake
      exact ⟨hw₁.trans (adds_newTuple w₁ cs),
        hm₁.trans (.leaf (fun _ hx => by cases hx) (not_isRefusal (by simp))),
        by simp [isTracked]⟩

theorem Thorough.dictionary (hcopy : Thorough b copy) {d : Ref .dictionary} {c : Value}
    (hw : Adds b w) (h : Does (copyObject copy (.dictionary d)) m w c m' w') :
    Copied b (.dictionary d) m m' w' := by
  simp only [Copying.copyObject, does_bind, does_lift, run_see_ok, run_make_ok, remember,
    does_modify, does_pure] at h
  obtain ⟨_, _, _, ⟨⟨rfl, rfl⟩, rfl⟩, d', _, w₁, ⟨hmake, rfl⟩, _, _, _, ⟨rfl, rfl⟩, _, m₂, w₂,
    hpairs, rfl, rfl, rfl⟩ := h
  cases hmake
  have hw₁ : Adds b { w with dictionaries := w.dictionaries.add .empty } :=
    ⟨hw.nodes, hw.lists, hw.tuples, hw.exceptions⟩
  obtain ⟨hw₂, hm₂⟩ := hcopy.pairs _ _ _ _ _ _ hw₁ hpairs
  exact ⟨hw₂, hm₂.insert (fun _ hx => by cases hx) (not_isRefusal (by simp)), by simp [isTracked]⟩

/-- An exception that has been copied is no error about foreign traversal: the class of that error
does not make one of a text alone. -/
theorem Thorough.exception (hcopy : Thorough b copy) {r : Ref .exception} {c : Value}
    (hw : Adds b w) (h : Does (copyObject copy (.exception r)) m w c m' w') :
    Copied b (.exception r) m m' w' := by
  simp only [Copying.copyObject, does_bind, does_lift, run_see_ok, remember, does_modify, restore,
    run_change_ok, does_pure] at h
  obtain ⟨_, _, _, ⟨⟨rfl, rfl⟩, rfl⟩, _, _, _, ⟨⟨rfl, rfl⟩, rfl⟩, cs, m₁, w₁, hargs, x, _, w₂,
    ⟨hmake, rfl⟩, _, _, _, ⟨rfl, rfl⟩, a, m₃, w₃, hattributes, _, _, _, ⟨rfl, rfl⟩, rfl, rfl,
    rfl⟩ := h
  obtain ⟨hw₁, hm₁, -, htext⟩ := hcopy.all _ m w cs m₁ w₁ hw hargs
  obtain ⟨hw₂, hx⟩ := makeException_adds hmake
  obtain ⟨hw₃, hm₃, -⟩ := hcopy.attributes (hw₁.trans hw₂) hattributes
  have hnew : New w₁ (.exception x) := ⟨by simp, fun r hr => by cases hr; exact hx⟩
  have hother : ¬ IsRefusal b (.exception r) := by
    rintro ⟨r', message, hrr, hr⟩
    obtain rfl := Value.exception.inj hrr
    replace hr := hw.refuses hr
    rw [htext message hr.args, hr.cls, hr.args] at hmake
    cases hmake
  exact ⟨hw₃.modifyOwn (hnew.before hw₁) _,
    hm₁.trans (hm₃.insert (fun _ hx => by cases hx) hother),
    fun _ => hm₃.keeps _ (by simp [Memo.find?_insert])⟩

theorem Thorough.method (hcopy : Thorough b copy) {r : Ref .method} {c : Value} (hw : Adds b w)
    (h : Does (copyObject copy (.method r)) m w c m' w') : Copied b (.method r) m m' w' := by
  simp only [Copying.copyObject, does_bind, does_lift, run_see_ok] at h
  obtain ⟨_, _, _, ⟨⟨rfl, rfl⟩, rfl⟩, h⟩ := h
  split at h
  · obtain ⟨-, rfl, rfl⟩ := does_pure.1 h
    exact ⟨hw, .refl b _ m, by simp [isTracked]⟩
  · simp only [does_bind, does_lift, run_make_ok, remember, does_modify, does_pure] at h
    obtain ⟨self, m₁, w₁, hself, x, _, w₂, ⟨hmake, rfl⟩, _, _, _, ⟨rfl, rfl⟩, rfl, rfl, rfl⟩ := h
    cases hmake
    obtain ⟨hw₁, hm₁, -⟩ := hcopy m w _ self m₁ w₁ hw hself
    exact ⟨⟨hw₁.nodes, hw₁.lists, hw₁.tuples, hw₁.exceptions⟩,
      hm₁.trans (.leaf (fun _ hx => by cases hx) (not_isRefusal (by simp))), by simp [isTracked]⟩

/-- A copy of an object is thorough if those of what it holds are. -/
theorem Thorough.copyObject (hcopy : Thorough b copy) {v c : Value} (hw : Adds b w)
    (h : Does (copyObject copy v) m w c m' w') : Copied b v m m' w' := by
  cases v
  case list => exact hcopy.list hw h
  case tuple => exact hcopy.tuple hw h
  case dictionary => exact hcopy.dictionary hw h
  case exception => exact hcopy.exception hw h
  case method => exact hcopy.method hw h
  case lock | condition | holding => cases h
  all_goals exact hcopy.object (by simp) (by simp) hw h

theorem not_tracked_of_shared {v : Value} (h : isShared v = true) : isTracked v = false := by
  cases v <;> first | rfl | cases h

/-- What a deep copy has done: it has recalled a copy, or it has copied an object. -/
theorem deepWithin_ok {fuel : Nat} {begun : List (Value × Nat)} {v c : Value}
    (hs : isShared v = false) (h : Does (deepWithin fuel begun v) m w c m' w') :
    (m.find? v = some c ∧ m = m' ∧ w = w') ∨ ∃ fuel' begun',
      Does (copyObject (deepWithin fuel' begun') v) m w c m' w' ∧ fuel = fuel' + 1 := by
  unfold deepWithin at h
  simp only [hs, Bool.false_eq_true, if_false, does_bind, recalled?, does_get, does_pure] at h
  obtain ⟨found, _, _, ⟨_, _, _, ⟨rfl, rfl, rfl⟩, rfl, rfl, rfl⟩, h⟩ := h
  split at h
  · rename_i found hfound
    obtain ⟨rfl, rfl, rfl⟩ := does_pure.1 h
    exact .inl ⟨hfound, rfl, rfl⟩
  · simp only [does_bind, does_get] at h
    obtain ⟨_, _, _, ⟨rfl, rfl, rfl⟩, h⟩ := h
    split at h
    · exact absurd h not_does_throw
    · split at h
      · exact absurd h not_does_throw
      · exact .inr ⟨_, _, h, rfl⟩

/-- **A deep copy is thorough**, however deep it may go. -/
theorem thorough_deepWithin (b : World ε) (fuel : Nat) :
    ∀ begun, Thorough b (deepWithin fuel begun) := by
  induction fuel using Nat.strongRecOn with
  | _ fuel ih =>
  intro begun m w v c m' w' hw h
  cases hs : isShared v with
  | true =>
    rw [deepWithin_shared hs] at h
    obtain ⟨rfl, rfl, rfl⟩ := does_pure.1 h
    exact ⟨hw, .refl b _ m, by simp [not_tracked_of_shared hs], fun _ _ => rfl⟩
  | false =>
    have htext : ∀ s, v = .text s → c = v := by
      rintro s rfl
      cases hs
    rcases deepWithin_ok hs h with ⟨hfound, rfl, rfl⟩ | ⟨fuel', begun', hcopied, rfl⟩
    · exact ⟨hw, .refl b _ m, fun _ => by simp [hfound], htext⟩
    · obtain ⟨hw', hm, hv⟩ := (ih fuel' (Nat.lt_succ_self _) begun').copyObject hw hcopied
      exact ⟨hw', hm, hv, htext⟩

/-- Where a value has been remembered along with all that nodes and lists hold, so has been all that
the value contains. -/
theorem Closes.contains {α : Type} {P : Value → Prop} {m : Memo α} {v x : Value}
    (h : Closes b P .empty m) (hv : isTracked v = true → (m.find? v).isSome = true)
    (hx : b.Contains v x) (ht : isTracked x = true) : (m.find? x).isSome = true := by
  induction hx with
  | refl => exact hv ht
  | tail _ hx ih =>
    refine h.closed _ _ (Memo.find?_empty _) (ih ?_) hx ht
    cases hx <;> rfl

/-- **What contains an error about foreign traversal is not copied.** -/
theorem deep_fails {v : Value} {r : Ref .exception} {message : String} (hr : w.Refuses r message)
    (hv : w.Contains v (.exception r)) : ∃ f w', (deep v).run w = (.error f, w') := by
  cases hrun : (deep v).run w with
  | mk o w' =>
  cases o with
  | error f => exact ⟨f, w', rfl⟩
  | ok c =>
    simp only [deep, run_bind_ok, run_see_ok, run_pure_ok] at hrun
    obtain ⟨_, _, ⟨rfl, rfl⟩, ⟨c', m⟩, w₁, hrun, -, -⟩ := hrun
    obtain ⟨-, hm, hroot, -⟩ := thorough_deepWithin w _ [] .empty w v c' m w₁ (.refl w) hrun
    have hsome := hm.contains hroot hv rfl
    rw [hm.spared _ ⟨r, message, rfl, hr⟩ (Memo.find?_empty _)] at hsome
    cases hsome

end Copying

end GuardedWalk

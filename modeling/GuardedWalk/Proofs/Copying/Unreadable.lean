import GuardedWalk.Proofs.Copying.Thorough

/-!
# What cannot be read back

What is written of a value holds all that the value contains. An error about foreign traversal is
written, too, if what it holds can be; but it cannot be built again. So whatever is written of
something that contains one is never read back.

What has been built of the arguments of the error is told apart from all else by its number. As much
is numbered while values are built as while they are written, so what is recalled in the place of
the arguments is a tuple of one text, wherever they have been met before.

## Main definitions

* `GuardedWalk.Copying.Agrees` — what has been built is numbered as it was written.
* `GuardedWalk.Copying.Carries` — instructions build what has been written.
* `GuardedWalk.Copying.WritesAll` — a way to write values that comes across all that they contain.
* `GuardedWalk.Copying.WrittenAs` — what holds of an object that has been written.

## Main results

* `GuardedWalk.Copying.not_made` — an error about foreign traversal is not built.
* `GuardedWalk.Copying.written_fails` — what contains one is not read back.
* `GuardedWalk.Copying.errors_do_not_survive_copies` — copies of errors, and of what contains them.
-/

set_option autoImplicit false

namespace GuardedWalk

namespace Copying

open Act

variable {ε : Type} {b w w' w'' : World ε} {μ μ' μ'' : Memo Nat} {r : Ref .exception}
  {message : String} {I J K : List Instruction} {write : Value → Writing ε (List Instruction)}

/-- A value is a tuple of one text. -/
def IsRow (message : String) (w : World ε) (v : Value) : Prop :=
  ∃ t, v = .tuple t ∧ w.row t = [.text message]

theorem IsRow.grows {v : Value} (h : IsRow message w v) (hw : w.tuples.Grows id w'.tuples) :
    IsRow message w' v := by
  obtain ⟨t, rfl, ht⟩ := h
  refine ⟨t, rfl, ?_⟩
  have hstored : t.index < w.tuples.cells.size := by
    refine Nat.lt_of_not_le fun hle => ?_
    rw [World.row, Store.get_of_le hle] at ht
    cases ht
  rw [World.row, show w'.tuples.get t = w.tuples.get t from hw.2 t hstored]
  exact ht

theorem putAll_tuples (d : Ref .dictionary) :
    ∀ (items : List Value) (w : World ε), ((putAll d items).run w).2.tuples = w.tuples
  | key :: v :: rest, w => by
    rw [putAll, run_bind, run_change]
    exact (putAll_tuples d rest _).trans rfl
  | [], _ | [_], _ => rfl

theorem fill_tuples (below : Value) (items : List Value) (w : World ε) :
    ((fill below items).run w).2.tuples = w.tuples := by
  cases below with
  | dictionary d => exact putAll_tuples d items w
  | _ => rfl

theorem fill_grows {below : Value} {items : List Value} {u : Unit}
    (h : (fill below items).run w = (.ok u, w')) : w.tuples.Grows id w'.tuples := by
  have hsame := fill_tuples below items w
  rw [h] at hsame
  rw [hsame]
  exact .refl _ _

theorem reveal_tuples (w : World ε) (v : Value) (m : World.Member) :
    w.tuples.Grows id (w.reveal v m).2.tuples := by
  cases m with
  | number x => cases x <;> exact .refl _ _
  | row items => exact Store.grows_add ..
  | _ => exact .refl _ _

/-- Whether an instruction numbers something. -/
def Instruction.numbers : Instruction → Bool
  | number => true
  | _ => false

/-- An instruction adds to the tuples, and only one of them numbers anything. -/
theorem carryOut_ok {bench bench' : Bench} {i : Instruction}
    (h : (carryOut bench i).run w = (.ok bench', w')) :
    w.tuples.Grows id w'.tuples ∧
      bench'.numbered = if i.numbers then bench.numbered.push bench.head else bench.numbered := by
  cases i
  case keep v => cases v <;> cases h <;> exact ⟨.refl _ _, rfl⟩
  case object v =>
    simp only [carryOut, run_bind_ok, run_pure_ok] at h
    obtain ⟨x, _, hblank, rfl, rfl⟩ := h
    refine ⟨?_, rfl⟩
    rw [blank, run_make_ok] at hblank
    cases v <;> cases hblank <;> exact .refl _ _
  case append n | put n =>
    simp only [carryOut, run_bind_ok, run_pure_ok] at h
    obtain ⟨_, _, hfill, rfl, rfl⟩ := h
    exact ⟨fill_grows hfill, rfl⟩
  case restore names =>
    simp only [carryOut, run_bind_ok, run_pure_ok, restore, run_change_ok] at h
    obtain ⟨_, _, rfl, rfl, rfl⟩ := h
    refine ⟨?_, rfl⟩
    generalize (bench.pop names.length).head = v
    cases v <;> exact .refl _ _
  case exception cls =>
    simp only [carryOut, run_bind_ok, run_pure_ok, gather, run_look_ok] at h
    obtain ⟨args, _, ⟨-, rfl⟩, x, _, hmake, rfl, rfl⟩ := h
    exact ⟨(makeException_adds hmake).1.tuples, rfl⟩
  case method m =>
    simp only [carryOut, run_bind_ok, run_pure_ok, Act.read, run_look_ok, run_make_ok] at h
    obtain ⟨x, _, ⟨y, _, ⟨-, rfl⟩, hreveal⟩, rfl, rfl⟩ := h
    refine ⟨?_, rfl⟩
    have hgrows := reveal_tuples w bench.head y
    rwa [hreveal] at hgrows
  case tuple n => cases h; exact ⟨Store.grows_add .., rfl⟩
  all_goals
    cases h
    exact ⟨.refl _ _, rfl⟩

/-- One instruction by itself is carried out. -/
theorem carryOut_of_single {bench bench' : Bench} {i : Instruction}
    (h : ([i].foldlM carryOut bench).run w = (.ok bench', w')) :
    (carryOut bench i).run w = (.ok bench', w') := by
  rw [List.foldlM_cons, run_bind_ok] at h
  obtain ⟨bench₁, w₁, hi, h⟩ := h
  obtain ⟨rfl, rfl⟩ := run_pure_ok.1 h
  exact hi

/-! ## What is built of the arguments of an error -/

section Refused

variable (b : World ε) (r : Ref .exception) (message : String)

/-- The arguments of an exception. -/
def argsRow (b : World ε) (r : Ref .exception) : Value := .tuple (b.exceptions.get r).args

/-- As much has been numbered while it was built as while it was written, and if the arguments of an
error have been written, they have been built. -/
structure Agrees (μ : Memo Nat) (numbered : Array Value) (w : World ε) : Prop where
  size : μ.size = numbered.size
  row : ∀ n, μ.find? (argsRow b r) = some n → ∃ v, numbered[n]? = some v ∧ IsRow message w v

/-- Instructions for what has been written build it, whenever they succeed; the error is not among
it. -/
def Carries (I : List Instruction) (μ μ' : Memo Nat) : Prop :=
  ∀ stack numbered w bench w', Agrees b r message μ numbered w →
    (I.foldlM carryOut ⟨stack, numbered⟩).run w = (.ok bench, w') →
      Agrees b r message μ' bench.numbered w' ∧
        (μ.find? (.exception r) = none → μ'.find? (.exception r) = none)

variable {b r message}

theorem Carries.nil : Carries b r message [] μ μ := by
  intro stack numbered w bench w' ha h
  obtain ⟨rfl, rfl⟩ := run_pure_ok.1 h
  exact ⟨ha, id⟩

theorem Carries.append (h : Carries b r message I μ μ') (h' : Carries b r message J μ' μ'') :
    Carries b r message (I ++ J) μ μ'' := by
  intro stack numbered w bench w' ha hrun
  rw [List.foldlM_append, run_bind_ok] at hrun
  obtain ⟨bench₁, w₁, hI, hJ⟩ := hrun
  obtain ⟨ha₁, hr₁⟩ := h stack numbered w bench₁ w₁ ha hI
  obtain ⟨ha₂, hr₂⟩ := h' bench₁.stack bench₁.numbered w₁ bench w' ha₁ hJ
  exact ⟨ha₂, fun hr => hr₂ (hr₁ hr)⟩

/-- What numbers nothing leaves what is written as it is. -/
theorem Carries.single {i : Instruction} (hi : i.numbers = false) :
    Carries b r message [i] μ μ := by
  intro stack numbered w bench w' ha h
  obtain ⟨hw, hn⟩ := carryOut_ok (carryOut_of_single h)
  rw [if_neg (by simp [hi])] at hn
  refine ⟨⟨?_, fun n hn' => ?_⟩, id⟩
  · rw [hn, ha.size]
  · obtain ⟨v, hv, hrow⟩ := ha.row n hn'
    exact ⟨v, by rw [hn, hv], hrow.grows hw⟩

theorem Carries.putting {n : Nat} {i : Instruction} (hi : i.numbers = false) :
    Carries b r message (putting n i) μ μ := by
  unfold Copying.putting
  split
  · exact .nil
  · exact .single hi

/-- A value that is neither the error nor its arguments is numbered. -/
theorem Carries.number {v : Value} (hv : v ≠ argsRow b r) (hr : v ≠ .exception r) :
    Carries b r message [.number] μ (μ.insert v μ.size) := by
  intro stack numbered w bench w' ha h
  obtain ⟨hw, hn⟩ := carryOut_ok (carryOut_of_single h)
  rw [if_pos (by rfl)] at hn
  refine ⟨⟨?_, fun n hn' => ?_⟩, fun h => ?_⟩
  · rw [hn, Memo.size_insert, ha.size, Array.size_push]
  · rw [Memo.find?_insert, if_neg hv.symm] at hn'
    obtain ⟨v, hv, hrow⟩ := ha.row n hn'
    refine ⟨v, ?_, hrow.grows hw⟩
    have hlt := (Array.getElem?_eq_some_iff.1 hv).1
    rw [hn, Array.getElem?_push, if_neg (Nat.ne_of_lt hlt), hv]
  · rw [Memo.find?_insert, if_neg hr.symm, h]

/-- **The error is never read back**: what it would be made of is a tuple of one text. -/
theorem not_made {bench bench' : Bench} (hv : IsRow message w bench.head) :
    ((.exception .foreignTraversalError :: J).foldlM carryOut bench).run w ≠ (.ok bench', w') := by
  intro h
  obtain ⟨t, hhead, ht⟩ := hv
  simp only [List.foldlM_cons, carryOut, gather, run_bind_ok, run_look_ok, hhead,
    World.elementsOf_tuple, ht] at h
  obtain ⟨_, _, ⟨args, _, ⟨hargs, rfl⟩, x, _, hmake, -⟩, -⟩ := h
  cases hargs
  cases hmake

variable (b r message)

/-- Something writes values, and whenever it succeeds, all that a value passes on has been written
with it; what has been written is built. -/
def WritesAll (write : Value → Writing ε (List Instruction)) : Prop :=
  ∀ μ v I μ' w', Does (write v) μ b I μ' w' →
    b = w' ∧ Closes b (fun _ => False) μ μ' ∧
      (isTracked v = true → (μ'.find? v).isSome = true) ∧ Carries b r message I μ μ' ∧
      (∀ s, v = .text s → I = [.keep v] ∧ μ' = μ) ∧
      (v = argsRow b r → ∀ stack numbered w bench w', Agrees b r message μ numbered w →
        (I.foldlM carryOut ⟨stack, numbered⟩).run w = (.ok bench, w') →
          IsRow message w' bench.head)

variable {b r message}

theorem WritesAll.all (hwrite : WritesAll b r message write) :
    ∀ vs μ I μ' w', Does (writeAll write vs) μ b I μ' w' →
      b = w' ∧ Closes b (fun _ => False) μ μ' ∧
        (∀ v ∈ vs, isTracked v = true → (μ'.find? v).isSome = true) ∧
        Carries b r message I μ μ' ∧ ∀ s, vs = [.text s] → I = [.keep (.text s)] ∧ μ' = μ
  | [], μ, I, μ', w', h => by
    obtain ⟨rfl, rfl, rfl⟩ := does_pure.1 h
    exact ⟨rfl, .refl b _ μ, by simp, .nil, by simp⟩
  | v :: rest, μ, I, μ', w', h => by
    simp only [writeAll, does_bind, does_pure] at h
    obtain ⟨I₁, μ₁, _, hfirst, I₂, μ₂, _, hrest, rfl, rfl, rfl⟩ := h
    obtain ⟨rfl, hμ₁, hv, hI₁, htext, -⟩ := hwrite μ v I₁ μ₁ _ hfirst
    obtain ⟨rfl, hμ₂, hall, hI₂, -⟩ := hwrite.all rest μ₁ I₂ μ₂ _ hrest
    refine ⟨rfl, hμ₁.trans hμ₂, ?_, hI₁.append hI₂, ?_⟩
    · rintro u (_ | ⟨_, hu⟩) ht
      · exact hμ₂.keeps _ (hv ht)
      · exact hall u hu ht
    · intro s hs
      obtain ⟨rfl, rfl⟩ := List.cons.inj hs
      obtain ⟨rfl, rfl⟩ := htext s rfl
      obtain ⟨rfl, rfl, -⟩ := does_pure.1 hrest
      exact ⟨rfl, rfl⟩

theorem WritesAll.attributes (hwrite : WritesAll b r message write) {a : Attributes}
    (h : Does (writeAttributes write a) μ b I μ' w') :
    b = w' ∧ Closes b (fun _ => False) μ μ' ∧
      (∀ p ∈ a, isTracked p.2 = true → (μ'.find? p.2).isSome = true) ∧
      Carries b r message I μ μ' := by
  simp only [writeAttributes, does_bind, does_pure] at h
  obtain ⟨J, μ₁, _, hall, rfl, rfl, rfl⟩ := h
  obtain ⟨rfl, hμ, hall, hJ, -⟩ := hwrite.all _ μ J _ _ hall
  exact ⟨rfl, hμ, fun p hp => hall p.2 (List.mem_map_of_mem hp), hJ.append (.putting rfl)⟩

theorem numberNext_ok {v : Value} (h : Does (numberNext v) μ w I μ' w') :
    I = [.number] ∧ μ' = μ.insert v μ.size ∧ w = w' := by
  simp only [numberNext, does_bind, does_modify, does_pure] at h
  obtain ⟨_, _, _, ⟨rfl, rfl⟩, rfl, rfl, rfl⟩ := h
  exact ⟨rfl, rfl, rfl⟩

theorem numberOr_ok {v : Value} {count : Nat} (h : Does (numberOr v I count J) μ w K μ' w') :
    w = w' ∧ ((∃ n, μ.find? v = some n ∧ K = I ++ [.drop count, .recall n] ∧ μ' = μ) ∨
      (μ.find? v = none ∧ K = I ++ J ++ [.number] ∧ μ' = μ.insert v μ.size)) := by
  simp only [numberOr, does_bind, does_get] at h
  obtain ⟨_, _, _, ⟨rfl, rfl, rfl⟩, h⟩ := h
  split at h
  · rename_i n hn
    obtain ⟨rfl, rfl, rfl⟩ := does_pure.1 h
    exact ⟨rfl, .inl ⟨n, hn, rfl, rfl⟩⟩
  · rename_i hn
    simp only [does_bind, does_pure] at h
    obtain ⟨_, _, _, hnext, rfl, rfl, rfl⟩ := h
    obtain ⟨rfl, rfl, rfl⟩ := numberNext_ok hnext
    exact ⟨rfl, .inr ⟨hn, rfl, rfl⟩⟩

/-- A list, a dictionary or an object is numbered, and then what it holds is written. -/
theorem Carries.numbered {v : Value} {i j : Instruction} {n : Nat} (hi : i.numbers = false)
    (hj : j.numbers = false) (hv : v ≠ argsRow b r) (hr : v ≠ .exception r)
    (hI : Carries b r message I (μ.insert v μ.size) μ') :
    Carries b r message (i :: [.number] ++ I ++ Copying.putting n j) μ μ' :=
  (((Carries.single hi).append (.number hv hr)).append hI).append (.putting hj)

/-- What is written of the arguments of the error. -/
theorem row_writes {stack : List Value} {numbered : Array Value} {w w' : World ε} {bench : Bench}
    (ha : Agrees b r message μ numbered w)
    (h : ([.keep (.text message), .tuple 1, .number].foldlM carryOut ⟨stack, numbered⟩).run w =
      (.ok bench, w')) :
    Agrees b r message (μ.insert (argsRow b r) μ.size) bench.numbered w' ∧
      IsRow message w' bench.head := by
  rw [row_built] at h
  obtain ⟨rfl, rfl⟩ := run_pure_ok.1 h
  have hget : (w.newTuple [.text message]).2.row w.tuples.next = [.text message] :=
    congrArg Array.toList ((Store.get_add ..).trans (if_pos rfl))
  refine ⟨⟨by simp [ha.size], fun n hn => ⟨.tuple w.tuples.next, ?_, _, rfl, hget⟩⟩, _, rfl, hget⟩
  rw [Memo.find?_insert, if_pos rfl] at hn
  obtain rfl := Option.some.inj hn
  simp [ha.size]

variable (b r message)

/-- What an object has been written as: all that it passes on has been written with it, what has
been written is built, and of the arguments of the error it is a tuple of one text. -/
structure WrittenAs (v : Value) (I : List Instruction) (μ μ' : Memo Nat) : Prop where
  closes : Closes b (fun _ => False) μ μ'
  isNumbered : isTracked v = true → (μ'.find? v).isSome = true
  carries : Carries b r message I μ μ'
  row : v = argsRow b r → ∀ stack numbered w bench w', Agrees b r message μ numbered w →
    (I.foldlM carryOut ⟨stack, numbered⟩).run w = (.ok bench, w') → IsRow message w' bench.head

variable {b r message}

/-- An object is written that has attributes of its own. -/
def writeMembers (write : Value → Writing ε (List Instruction)) (v : Value) :
    Writing ε (List Instruction) := do
  let attributes ← (see (handedOn · v) : Act ε _)
  let number ← numberNext v
  return .object v :: number ++ (← writeAttributes write attributes)

theorem WritesAll.object (hwrite : WritesAll b r message write) {v : Value}
    (hv : v ≠ argsRow b r) (hr : v ≠ .exception r) (hl : ∀ l, v ≠ .list l)
    (h : Does (writeMembers write v) μ b I μ' w') :
    b = w' ∧ WrittenAs b r message v I μ μ' := by
  simp only [writeMembers, does_bind, does_lift, run_see_ok, does_pure] at h
  obtain ⟨_, _, _, ⟨⟨rfl, rfl⟩, rfl⟩, _, _, _, hnumber, J, _, _, hattributes, rfl, rfl, rfl⟩ := h
  obtain ⟨rfl, rfl, rfl⟩ := numberNext_ok hnumber
  obtain ⟨rfl, hμ, hall, hJ⟩ := hwrite.attributes hattributes
  refine ⟨rfl, hμ.insert (fun y hy ht => ?_) id,
    fun _ => hμ.keeps v (by simp [Memo.find?_insert]), ?_, fun h => absurd h hv⟩
  · cases hy with
    | @field r name _ among => exact hall (name, y) among ht
    | item => exact absurd rfl (hl _)
  · exact ((Carries.single (i := .object v) rfl).append (.number hv hr)).append hJ

theorem WritesAll.list (hwrite : WritesAll b r message write) {l : Ref .list}
    (h : Does (writeObject write (.list l)) μ b I μ' w') :
    b = w' ∧ WrittenAs b r message (.list l) I μ μ' := by
  simp only [Copying.writeObject, does_bind, does_lift, run_see_ok, does_pure] at h
  obtain ⟨_, _, _, ⟨⟨rfl, rfl⟩, rfl⟩, _, _, _, hnumber, J, _, _, hitems, rfl, rfl, rfl⟩ := h
  obtain ⟨rfl, rfl, rfl⟩ := numberNext_ok hnumber
  obtain ⟨rfl, hμ, hall, hJ, -⟩ := hwrite.all _ _ _ _ _ hitems
  refine ⟨rfl, hμ.insert (fun y hy ht => ?_) id,
    fun _ => hμ.keeps _ (by simp [Memo.find?_insert]),
    .numbered rfl rfl (by simp [argsRow]) (by simp) hJ, by simp [argsRow]⟩
  cases hy with
  | item among => exact hall y among ht

theorem WritesAll.dictionary (hwrite : WritesAll b r message write) {d : Ref .dictionary}
    (h : Does (writeObject write (.dictionary d)) μ b I μ' w') :
    b = w' ∧ WrittenAs b r message (.dictionary d) I μ μ' := by
  simp only [Copying.writeObject, does_bind, does_lift, run_see_ok, does_pure] at h
  obtain ⟨_, _, _, ⟨⟨rfl, rfl⟩, rfl⟩, _, _, _, hnumber, J, _, _, hitems, rfl, rfl, rfl⟩ := h
  obtain ⟨rfl, rfl, rfl⟩ := numberNext_ok hnumber
  obtain ⟨rfl, hμ, -, hJ, -⟩ := hwrite.all _ _ _ _ _ hitems
  exact ⟨rfl, hμ.insert (fun _ hx => by cases hx) id, by simp [isTracked],
    .numbered rfl rfl (by simp [argsRow]) (by simp) hJ, by simp [argsRow]⟩

/-- A tuple that has been met among its own items is recalled. -/
theorem WrittenAs.recalled {t : Ref .tuple} {n count : Nat}
    (hμ : Closes b (fun _ => False) μ μ') (hJ : Carries b r message J μ μ')
    (hn : μ'.find? (.tuple t) = some n) :
    WrittenAs b r message (.tuple t) (J ++ [.drop count, .recall n]) μ μ' where
  closes := hμ
  isNumbered := by simp [isTracked]
  carries := hJ.append ((Carries.single (i := .drop count) rfl).append (.single rfl))
  row ht stack numbered w bench w' ha hrun := by
    rw [List.foldlM_append, run_bind_ok] at hrun
    obtain ⟨bench₁, w₁, hrun₁, hrun⟩ := hrun
    obtain ⟨ha₁, -⟩ := hJ _ _ _ _ _ ha hrun₁
    obtain ⟨v, hv, hrow⟩ := ha₁.row n (ht ▸ hn)
    obtain ⟨rfl, rfl⟩ := run_pure_ok.1 hrun
    simpa [Bench.head, Bench.push, Bench.recalled, Bench.pop, Array.getD_eq_getD_getElem?,
      hv] using hrow

theorem WritesAll.tuple (hwrite : WritesAll b r message write) (hr : b.Refuses r message)
    {t : Ref .tuple} (h : Does (writeObject write (.tuple t)) μ b I μ' w') :
    b = w' ∧ WrittenAs b r message (.tuple t) I μ μ' := by
  have hrow : b.row (b.exceptions.get r).args = [.text message] := hr.args
  simp only [Copying.writeObject, does_bind, does_lift, run_see_ok] at h
  obtain ⟨_, _, _, ⟨⟨rfl, rfl⟩, rfl⟩, h⟩ := h
  split at h
  · rename_i hempty
    obtain ⟨rfl, rfl, rfl⟩ := does_pure.1 h
    refine ⟨rfl, .refl b _ μ, by simp [isTracked], .single rfl, fun ht => ?_⟩
    obtain rfl := Value.tuple.inj ht
    rw [hrow] at hempty
    cases hempty
  · simp only [does_bind] at h
    obtain ⟨J, μ₁, _, hitems, h⟩ := h
    obtain ⟨rfl, hμ, -, hJ, htext⟩ := hwrite.all _ _ _ _ _ hitems
    obtain ⟨rfl, ⟨n, hn, rfl, rfl⟩ | ⟨hn, rfl, rfl⟩⟩ := numberOr_ok h
    · exact ⟨rfl, .recalled hμ hJ hn⟩
    · by_cases ht : Value.tuple t = argsRow b r
      · -- the arguments of the error
        obtain rfl := Value.tuple.inj ht
        obtain ⟨rfl, rfl⟩ := htext message hrow
        rw [hrow]
        refine ⟨rfl, .leaf (fun _ hx => by cases hx) id, by simp [isTracked], ?_, ?_⟩
        · intro stack numbered w bench w' ha hrun
          exact ⟨(row_writes ha hrun).1, fun h => by simpa [Memo.find?_insert] using h⟩
        · intro _ stack numbered w bench w' ha hrun
          exact (row_writes ha hrun).2
      · exact ⟨rfl, hμ.trans (.leaf (fun _ hx => by cases hx) id), by simp [isTracked],
          (hJ.append (.single rfl)).append (.number ht (by simp)), fun h => absurd h ht⟩

/-- After an exception has been made it is numbered and its attributes are written, unless it was
numbered with its arguments: then it is recalled. -/
theorem WritesAll.made (hwrite : WritesAll b r message write) {x : Ref .exception}
    {i : Instruction} {made : List Instruction} {attributes : Attributes}
    (hmade : Does (numberOr (.exception x) (J ++ [i]) 1 []) μ b made μ' w')
    (h : Does (if (μ.find? (.exception x)).isNone then
        (do return made ++ (← writeAttributes write attributes)) else pure made) μ' w' I μ'' w'') :
    b = w'' ∧ ∃ rest, I = J ++ i :: rest ∧ Closes b (fun _ => False) μ μ'' ∧
      (μ''.find? (.exception x)).isSome = true ∧ (x ≠ r → Carries b r message rest μ μ'') := by
  obtain ⟨rfl, ⟨n, hn, rfl, rfl⟩ | ⟨hn, rfl, rfl⟩⟩ := numberOr_ok hmade
  · simp only [hn, Option.isNone_some, Bool.false_eq_true, if_false, does_pure] at h
    obtain ⟨rfl, rfl, rfl⟩ := h
    exact ⟨rfl, [.drop 1, .recall n], by simp, .refl b _ _, by simp [hn],
      fun _ => (Carries.single (i := .drop 1) rfl).append (.single rfl)⟩
  · simp only [hn, Option.isNone_none, if_true, does_bind, does_pure] at h
    obtain ⟨L, _, _, hattributes, rfl, rfl, rfl⟩ := h
    obtain ⟨rfl, hμ, -, hL⟩ := hwrite.attributes hattributes
    exact ⟨rfl, .number :: L, by simp, hμ.insert (fun _ hx => by cases hx) id,
      hμ.keeps _ (by simp [Memo.find?_insert]), fun hx => (Carries.number (by simp [argsRow])
        fun h => hx (Value.exception.inj h)).append hL⟩

theorem WritesAll.exception (hwrite : WritesAll b r message write) (hr : b.Refuses r message)
    {x : Ref .exception} (h : Does (writeObject write (.exception x)) μ b I μ' w') :
    b = w' ∧ WrittenAs b r message (.exception x) I μ μ' := by
  simp only [Copying.writeObject, does_bind, does_lift, run_see_ok, does_get] at h
  obtain ⟨_, _, _, ⟨⟨rfl, rfl⟩, rfl⟩, J, μ₁, _, hargs, _, _, _, ⟨rfl, rfl, rfl⟩, made, μ₂, _,
    hmade, h⟩ := h
  obtain ⟨rfl, hμ₁, -, hJ, -, hhead⟩ := hwrite _ _ _ _ _ hargs
  obtain ⟨rfl, rest, rfl, hμ₂, hsome, hrest⟩ := hwrite.made hmade (by simpa using h)
  refine ⟨rfl, hμ₁.trans hμ₂, fun _ => hsome, ?_, by simp [argsRow]⟩
  by_cases hx : x = r
  · -- the error itself cannot be made, so nothing is built of these instructions
    subst hx
    intro stack numbered w bench w' ha hrun
    rw [List.foldlM_append, run_bind_ok, hr.cls] at hrun
    obtain ⟨bench₁, w₁, hrun₁, hrun⟩ := hrun
    exact absurd hrun (not_made (hhead rfl _ _ _ _ _ ha hrun₁))
  · exact hJ.append ((Carries.single (i := .exception (b.exceptions.get x).cls) rfl).append
      (hrest hx))

theorem WritesAll.method (hwrite : WritesAll b r message write) {x : Ref .method}
    (h : Does (writeObject write (.method x)) μ b I μ' w') :
    b = w' ∧ WrittenAs b r message (.method x) I μ μ' := by
  simp only [Copying.writeObject, does_bind, does_lift, run_see_ok] at h
  obtain ⟨_, _, _, ⟨⟨rfl, rfl⟩, rfl⟩, J, μ₁, _, hself, h⟩ := h
  obtain ⟨rfl, hμ, -, hJ, -⟩ := hwrite _ _ _ _ _ hself
  obtain ⟨rfl, ⟨n, hn, rfl, rfl⟩ | ⟨hn, rfl, rfl⟩⟩ := numberOr_ok h
  · exact ⟨rfl, hμ, by simp [isTracked], (hJ.append (.single rfl)).append
      ((Carries.single rfl).append (.single rfl)), by simp [argsRow]⟩
  · exact ⟨rfl, hμ.trans (.leaf (fun _ hx => by cases hx) id), by simp [isTracked],
      ((hJ.append (.single rfl)).append .nil).append (.number (by simp [argsRow]) (by simp)),
      by simp [argsRow]⟩

theorem WritesAll.writeObject (hwrite : WritesAll b r message write) (hr : b.Refuses r message)
    {v : Value} (h : Does (writeObject write v) μ b I μ' w') :
    b = w' ∧ WrittenAs b r message v I μ μ' := by
  cases v
  case list => exact hwrite.list h
  case tuple => exact hwrite.tuple hr h
  case dictionary => exact hwrite.dictionary h
  case exception => exact hwrite.exception hr h
  case method => exact hwrite.method h
  case lock | condition | holding => cases h
  all_goals exact hwrite.object (by simp [argsRow]) (by simp) (by simp) h

/-- What has been written of a value: it can be written, and it was kept as it is, it has a number
or it has been written as an object. -/
theorem writeWithin_ok {fuel : Nat} {begun : List (Value × Nat)} {v : Value}
    (h : Does (writeWithin fuel begun v) μ b I μ' w') :
    (isShared v = true ∧ I = [.keep v] ∧ μ = μ' ∧ b = w') ∨
      (isShared v = false ∧ ∃ n, μ.find? v = some n ∧ I = [.recall n] ∧ μ = μ' ∧ b = w') ∨
      (isShared v = false ∧ ∃ fuel' begun',
        Does (writeObject (writeWithin fuel' begun') v) μ b I μ' w' ∧ fuel = fuel' + 1) := by
  unfold writeWithin at h
  simp only [does_bind, does_lift, run_see_ok] at h
  obtain ⟨_, _, _, ⟨⟨rfl, rfl⟩, rfl⟩, h⟩ := h
  split at h
  · simp only [does_bind] at h
    obtain ⟨_, _, _, h, -⟩ := h
    exact absurd h not_does_throw
  · split at h
    · rename_i hs
      obtain ⟨rfl, rfl, rfl⟩ := does_pure.1 h
      exact .inl ⟨hs, rfl, rfl, rfl⟩
    · rename_i hs
      simp only [does_bind, does_get] at h
      obtain ⟨_, _, _, ⟨rfl, rfl, rfl⟩, h⟩ := h
      split at h
      · rename_i n hn
        obtain ⟨rfl, rfl, rfl⟩ := does_pure.1 h
        exact .inr (.inl ⟨by simpa using hs, n, hn, rfl, rfl, rfl⟩)
      · simp only [does_bind, does_get] at h
        obtain ⟨_, _, _, ⟨rfl, rfl, rfl⟩, h⟩ := h
        split at h
        · exact absurd h not_does_throw
        · split at h
          · exact absurd h not_does_throw
          · exact .inr (.inr ⟨by simpa using hs, _, _, h, rfl⟩)

/-- **All that a value passes on is written with it**, however deep it may lie. -/
theorem writesAll_writeWithin (hr : b.Refuses r message) (fuel : Nat) :
    ∀ begun, WritesAll b r message (writeWithin fuel begun) := by
  induction fuel using Nat.strongRecOn with
  | _ fuel ih =>
  intro begun μ v I μ' w' h
  rcases writeWithin_ok h with ⟨hs, rfl, rfl, rfl⟩ | ⟨hs, n, hn, rfl, rfl, rfl⟩ |
      ⟨hs, fuel', begun', hwritten, rfl⟩
  · refine ⟨rfl, .refl b _ μ, by simp [not_tracked_of_shared hs], .single rfl,
      fun _ _ => ⟨rfl, rfl⟩, ?_⟩
    rintro rfl
    cases hs
  · refine ⟨rfl, .refl b _ μ, fun _ => by simp [hn], .single rfl, ?_, ?_⟩
    · rintro s rfl
      cases hs
    · intro hv stack numbered w bench w' ha hrun
      obtain ⟨v, hv, hrow⟩ := ha.row n (hv ▸ hn)
      obtain ⟨rfl, rfl⟩ := run_pure_ok.1 hrun
      simpa [Bench.head, Bench.push, Bench.recalled, Array.getD_eq_getD_getElem?, hv] using hrow
  · obtain ⟨hb, hμ, hv, hI, hrow⟩ := (ih fuel' (Nat.lt_succ_self _) begun').writeObject hr hwritten
    refine ⟨hb, hμ, hv, hI, ?_, hrow⟩
    rintro s rfl
    cases hs

/-- **What contains an error about foreign traversal cannot be written out and read back.** -/
theorem written_fails {v : Value} (hr : w.Refuses r message) (hv : w.Contains v (.exception r)) :
    ∃ f w', (written v).run w = (.error f, w') := by
  cases hrun : (written v).run w with
  | mk o w' =>
  cases o with
  | error f => exact ⟨f, w', rfl⟩
  | ok c =>
    simp only [written, build, run_bind_ok, run_see_ok, run_pure_ok] at hrun
    obtain ⟨_, _, ⟨rfl, rfl⟩, ⟨I, μ⟩, w₁, hwritten, bench, w₂, hbuilt, -, -⟩ := hrun
    obtain ⟨-, hμ, hroot, hI, -⟩ := writesAll_writeWithin hr _ [] .empty v I μ w₁ hwritten
    have hagrees : Agrees w r message .empty #[] w₁ := ⟨rfl, by simp⟩
    have hsome := hμ.contains hroot hv rfl
    rw [(hI _ _ _ _ _ hagrees hbuilt).2 (Memo.find?_empty _)] at hsome
    cases hsome

end Refused

/-! ## Errors and what contains them -/

/-- **Errors do not survive copies.** A node, a visitor, the name of a thread, a reason and perhaps
a message make an error about foreign traversal, whose text is one message. No deep copy of such an
error is made: its class lacks a visitor and the name of a thread. If what the error holds can be
written out, the error can be, too, but it cannot be read back for the same reason. Nothing that
contains such an error among its nodes and lists can be copied either way.

Some problems make an error about a configuration. Both copies of such an error are of the same
class and name the same problems, in a new list; but the text is not the one of the error: it is
about the characters of that text. -/
theorem errors_do_not_survive_copies :
    (∀ (w : World ε) (node visitor : Value) (thread reason : String) (message : Option String),
      ∃ r w' text, (makeException .foreignTraversalError [node, visitor, .text thread, .text reason,
          (message.map .text).getD .none]).run w = (.ok r, w') ∧ w'.Refuses r text ∧
        (∀ s, message = some s → text = s) ∧
        (w'.exceptions.get r).attributes = [("node", node), ("visitor", visitor),
          ("thread_name", .text thread), ("reason", .text reason)]) ∧
    (∀ (w : World ε) r message, w.Refuses r message →
      (deep (.exception r)).run w = (.error lacking, w) ∧
      (∃ f w', (written (.exception r)).run w = (.error f, w') ∧
        (f = lacking ∨ spelled w (.exception r) = (.error f, w'))) ∧
      ∀ v, w.Contains v (.exception r) → ∀ copy ∈ [deep, written],
        ∃ f w', (copy v).run w = (.error f, w')) ∧
    (∀ (w : World ε) v problems, w.elementsOf v = .ok (problems.map .text) →
      ∃ r l w', (makeException .configurationError [v]).run w = (.ok r, w') ∧
        w'.Blames r (Failure.configurationText problems) l problems) ∧
    ∀ (w : World ε) r message l problems, w.Blames r message l problems →
      w.plain (.exception r) = .ok message ∧ ∀ copy ∈ [deep, written], ∃ r' l' w' message',
        (copy (.exception r)).run w = (.ok (.exception r'), w') ∧
          w'.Blames r' message' l' problems ∧ w.lists.cells.size ≤ l'.index ∧
          w'.plain (.exception r') = .ok message' ∧
          message' = Failure.configurationText (Failure.characters message) ∧
          message' ≠ message := by
  refine ⟨makeException_refuses, fun w r message h => ⟨deep_refuses h, written_refuses h, ?_⟩,
    fun w v problems h => makeException_blames h, fun w r message l problems h => ⟨?_, ?_⟩⟩
  · intro v hv copy hcopy
    rcases List.mem_cons.1 hcopy with rfl | hcopy
    · exact deep_fails h hv
    · obtain rfl := List.mem_singleton.1 hcopy
      exact written_fails h hv
  · exact World.plain_exception (by simp [h.cls]) h.args
  · intro copy hcopy
    have hcopied : ∃ r' l' w', (copy (.exception r)).run w = (.ok (.exception r'), w') ∧
        w'.Blames r' (Failure.configurationText (Failure.characters message)) l' problems ∧
        w.lists.cells.size ≤ l'.index := by
      rcases List.mem_cons.1 hcopy with rfl | hcopy
      · exact deep_blames h
      · obtain rfl := List.mem_singleton.1 hcopy
        exact written_blames h
    obtain ⟨r', l', w', hrun, hblames, hnew⟩ := hcopied
    exact ⟨r', l', w', _, hrun, hblames, hnew,
      World.plain_exception (by simp [hblames.cls]) hblames.args, rfl,
      Failure.configurationText_characters_ne message⟩

/-! ## A step with an outcome -/

namespace Outcome

/-- A step whose outcome is an error about foreign traversal by a thread, and an error about a
configuration with two problems. -/
def sample : World Unit :=
  ((do
    let e ← makeException .foreignTraversalError [.none, .none, .text "T1"]
    let _ ← constructWith .step
      [("keyword", .text "Given "), ("name", .text "a thing"), ("exception", .exception e)]
    let _ ← makeException .configurationError [← addList [.text "a", .text "b"]]
    return () : Act Unit Unit).run (.empty ())).2

end Outcome

/-- The step can be copied in neither way, and the copies of the other error have another text. -/
theorem errors_do_not_survive_copies_of_step :
    Outcome.sample.Contains (.node ⟨0⟩) (.exception ⟨0⟩) ∧
    (∃ f w', (deep (.node ⟨0⟩)).run Outcome.sample = (.error f, w')) ∧
    (∃ f w', (written (.node ⟨0⟩)).run Outcome.sample = (.error f, w')) ∧
    ∃ r' w' message', (deep (.exception ⟨1⟩)).run Outcome.sample = (.ok (.exception r'), w') ∧
      w'.plain (.exception r') = .ok message' ∧
      message' ≠ "Invalid walker configuration: a; b" := by
  have hrefuses : Outcome.sample.Refuses ⟨0⟩
      "Foreign traversal of NoneType by NoneType on thread 'T1' (rejected)" :=
    ⟨by decide, by decide⟩
  have hcontains : Outcome.sample.Contains (.node ⟨0⟩) (.exception ⟨0⟩) :=
    .single (.field (show ("exception", _) ∈ _ by decide))
  have hblames : Outcome.sample.Blames ⟨1⟩ "Invalid walker configuration: a; b" ⟨1⟩ ["a", "b"] :=
    ⟨by decide, by decide, by decide, by decide, by decide⟩
  obtain ⟨-, hrefused, -, hblamed⟩ := errors_do_not_survive_copies (ε := Unit)
  obtain ⟨-, -, hfails⟩ := hrefused _ _ _ hrefuses
  obtain ⟨-, hcopies⟩ := hblamed _ _ _ _ _ hblames
  obtain ⟨r', l', w', message', hrun, -, -, hplain, -, hne⟩ := hcopies deep (List.mem_cons_self ..)
  exact ⟨hcontains, hfails _ hcontains deep (List.mem_cons_self ..),
    hfails _ hcontains written (by simp), r', w', message', hrun, hplain, hne⟩

end Copying

end GuardedWalk

import GuardedWalk.Proofs.World.Policing
import Mathlib.Algebra.BigOperators.Ring.Finset

/-!
# Reports are counted

A summary of reports counts the classes of the nodes and the classes of the visitors in one go
through the reports. Each of the two tables has a key for every name that occurs in a report and no
other key, and under it the number of reports in which the name occurs; so the numbers in either
table add up to the number of reports.

## Main definitions

* `GuardedWalk.Dictionary.Tallies` — a dictionary says how often names occur.
* `GuardedWalk.Dictionary.total` — the sum of the numbers in a dictionary.
* `GuardedWalk.Reports.SumsUp` — a dictionary is a summary of some attempts.
* `GuardedWalk.Reports.Extends` — lists and dictionaries have been added.

## Main results

* `GuardedWalk.Dictionary.Tallies.countOne` — a dictionary goes on saying so when one more name is
  counted.
* `GuardedWalk.Reports.count_run` — what the reports of some attempts are counted to.
* `GuardedWalk.Reports.summary_run` — what they are summed up to.
-/

set_option autoImplicit false

namespace GuardedWalk

namespace Store

variable {k : Kind} {α : Type}

theorem next_lt_add (s : Store k α) (a : α) : s.next.index < (s.add a).cells.size := by
  simp [add, next]

theorem get_add_next [Inhabited α] (s : Store k α) (a : α) : (s.add a).get s.next = a := by
  simp [get_add]

end Store

namespace Dictionary

/-- Pairs whose keys all differ are put one behind the other. -/
theorem pairs_foldl_put (same : Value → Value → Bool) :
    ∀ (l : List (Value × Value)) (d : Dictionary),
    (d.pairs ++ l).Pairwise (fun p q => same p.1 q.1 = false) →
      (l.foldl (fun d p => d.put same p.1 p.2) d).pairs = d.pairs ++ l
  | [], d, _ => (List.append_nil _).symm
  | p :: rest, d, h => by
    have hnew : d.has same p.1 = false := by
      rw [has, find?, Option.isSome_map, Option.isSome_eq_false_iff, Option.isNone_iff_eq_none,
        List.find?_eq_none]
      intro q hq
      simp [(List.pairwise_append.1 h).2.2 q hq p (by simp)]
    have hput : (d.put same p.1 p.2).pairs = d.pairs ++ [p] := by simp [pairs_put, hnew]
    rw [List.foldl_cons, pairs_foldl_put same rest _ (by simpa [hput] using h), hput]
    simp

/-- A dictionary has the pairs that have been put into it, if their keys differ. -/
theorem pairs_ofPairs {same : Value → Value → Bool} {l : List (Value × Value)}
    (h : l.Pairwise fun p q => same p.1 q.1 = false) : (ofPairs same l).pairs = l :=
  pairs_foldl_put same l empty h

/-! ## Tallies -/

/-- A dictionary has the names that occur among some names as its keys, each of them once, and
under each of them how often it occurs. -/
def Tallies (names : List String) (d : Dictionary) : Prop :=
  ∃ keys : List String, keys.Nodup ∧ (∀ c, c ∈ keys ↔ c ∈ names) ∧
    d.pairs = keys.map fun c => (.text c, .int (names.count c))

/-- The sum of the numbers in a dictionary. -/
def total (d : Dictionary) : Int :=
  (d.values.map fun
    | .int n => n
    | _ => 0).sum

variable {same : Value → Value → Bool} {d : Dictionary} {names : List String}

theorem tallies_empty : Tallies [] empty := ⟨[], .nil, fun _ => Iff.rfl, rfl⟩

/-- What is found under a text where all keys are texts. -/
theorem find?_text (hsame : ∀ a b, same (.text a) (.text b) = decide (a = b)) {keys : List String}
    {f : String → Value} (hd : d.pairs = keys.map fun c => (.text c, f c)) (c : String) :
    d.find? same (.text c) = if c ∈ keys then some (f c) else none := by
  rw [find?, hd, List.find?_map, Option.map_map]
  have htexts : ((fun p : Value × Value => same p.1 (.text c)) ∘ fun c => (.text c, f c)) =
      fun c' => decide (c' = c) := funext fun c' => hsame c' c
  rw [htexts]
  split
  · rename_i hc
    obtain ⟨c', hc'⟩ := Option.isSome_iff_exists.1
      (List.find?_isSome (p := fun c' => decide (c' = c)).2 ⟨c, hc, by simp⟩)
    obtain rfl : c' = c := by simpa using List.find?_some hc'
    rw [hc']
    rfl
  · rename_i hc
    rw [List.find?_eq_none.2 fun c' hc' => ?_]
    · rfl
    · rintro heq
      obtain rfl : c' = c := by simpa using heq
      exact hc hc'

namespace Tallies

/-- **Under a name a tally says how often it occurs.** -/
theorem find? (h : Tallies names d)
    (hsame : ∀ a b, same (.text a) (.text b) = decide (a = b)) (c : String) :
    d.find? same (.text c) = if c ∈ names then some (.int (names.count c)) else none := by
  obtain ⟨keys, -, hkeys, hd⟩ := h
  rw [find?_text hsame hd c]
  simp only [hkeys]

/-- **The numbers in a tally add up to the number of names.** -/
theorem total_eq (h : Tallies names d) : d.total = names.length := by
  obtain ⟨keys, hnodup, hkeys, hd⟩ := h
  have hperm : keys.Perm names.dedup :=
    (List.perm_ext_iff_of_nodup hnodup names.nodup_dedup).2 fun c => by simp [hkeys c]
  have hsum : (keys.map fun c => names.count c).sum = names.length := by
    rw [(hperm.map _).sum_eq, List.sum_map_count_dedup_eq_length]
  rw [total, values, hd, List.map_map, List.map_map, ← hsum]
  rw [Nat.cast_list_sum, List.map_map]
  rfl

/-- **A tally stays one when one more name is counted.** -/
theorem countOne (h : Tallies names d)
    (hsame : ∀ a b, same (.text a) (.text b) = decide (a = b)) (c : String) :
    Tallies (names ++ [c]) (Reports.countOne same d (.text c)) := by
  have hfind := h.find? hsame c
  obtain ⟨keys, hnodup, hkeys, hd⟩ := h
  by_cases hc : c ∈ names
  · -- the number under the name goes up
    rw [if_pos hc] at hfind
    refine ⟨keys, hnodup, fun c' => ?_, ?_⟩
    · rw [hkeys]
      simp only [List.mem_append, List.mem_singleton]
      exact ⟨.inl, fun h => h.elim id fun h => h ▸ hc⟩
    · rw [Reports.pairs_countOne, hfind, hd]
      simp only [List.map_map]
      refine List.map_congr_left fun c' _ => ?_
      simp only [Function.comp_apply, revalued, hsame, List.count_append, List.count_singleton]
      by_cases heq : c' = c
      · simp [heq]
      · simp [heq, Ne.symm heq]
  · -- the name becomes a new key
    rw [if_neg hc] at hfind
    have hnew : c ∉ keys := fun h => hc ((hkeys c).1 h)
    refine ⟨keys ++ [c], ?_, fun c' => ?_, ?_⟩
    · exact List.nodup_append.2 ⟨hnodup, List.nodup_singleton c, by
        rintro a ha b hb rfl
        exact hnew (List.mem_singleton.1 hb ▸ ha)⟩
    · simp only [List.mem_append, hkeys]
    · rw [Reports.pairs_countOne, hfind, hd]
      simp only [List.map_append]
      congr 1
      · refine List.map_congr_left fun c' hc' => ?_
        have hne : c ≠ c' := fun heq => hnew (heq ▸ hc')
        simp [List.count_append, hne]
      · simp [List.count_append, List.count_eq_zero.2 hc]

end Tallies

end Dictionary

/-! ## Reports -/

namespace World

variable {ε : Type}

/-- Texts count as the same exactly if they are equal. -/
theorem same_text (w : World ε) (a b : String) :
    w.same (.text a) (.text b) = decide (a = b) := by
  simp [same, sameWithin, Value.same, Value.number?]

theorem asKey_text (w : World ε) (s : String) : w.asKey (.text s) = .ok (.text s) := by
  simp [asKey, keyProblem?, keyProblemWithin]

end World

namespace Reports

variable {ε : Type} {w : World ε}

/-- A dictionary with texts as keys, all of them different. -/
theorem pairs_named {l : List (String × Value)} (h : (l.map (·.1)).Nodup) :
    (named l).pairs = l.map fun p => (.text p.1, p.2) := by
  refine Dictionary.pairs_ofPairs (List.pairwise_map.2 ?_)
  refine (List.pairwise_map.1 h).imp fun {p q} hne => ?_
  simp [Value.same, Value.number?, hne]

/-- What a report says. -/
theorem pairs_report (a : Attempt) :
    (report a).pairs = [(.text "node", a.node), (nodeTypeKey, .text a.nodeType),
      (visitorTypeKey, .text a.visitorType), (.text "thread", .text a.thread)] :=
  pairs_named (by simp)

/-- What is found in a report. -/
theorem lookup_report {d : Ref .dictionary} {a : Attempt} (hd : w.dictionaries.get d = report a) :
    w.lookup d nodeTypeKey = some (.text a.nodeType) ∧
      w.lookup d visitorTypeKey = some (.text a.visitorType) := by
  simp only [World.lookup, hd, Dictionary.find?, pairs_report, nodeTypeKey, visitorTypeKey,
    List.find?_cons, World.same_text]
  exact ⟨rfl, rfl⟩

/-- A name in a report can be counted. -/
theorem asKey_item {d : Ref .dictionary} {key name : String}
    (h : w.lookup d (.text key) = some (.text name)) :
    (do w.asKey (← w.item (.dictionary d) (.text key))) = .ok (.text name) := by
  have hitem : w.item (.dictionary d) (.text key) = .ok (.text name) := by
    simp only [World.item, World.asKey_text, bind, Except.bind, h]
    rfl
  rw [hitem]
  exact w.asKey_text name

/-- One report is counted. -/
theorem countReport_run {d : Ref .dictionary} {a : Attempt}
    (hd : w.dictionaries.get d = report a) (byNode byVisitor : Dictionary) :
    (countReport (byNode, byVisitor) (.dictionary d)).run w =
      (.ok (countOne w.same byNode (.text a.nodeType),
        countOne w.same byVisitor (.text a.visitorType)), w) := by
  obtain ⟨hnode, hvisitor⟩ := lookup_report hd
  simp only [countReport, Act.run_bind, Act.run_look, Act.run_see, Act.run_pure, nodeTypeKey,
    visitorTypeKey, asKey_item hnode, asKey_item hvisitor]

open Dictionary in
/-- Reports are counted, one after the other. -/
theorem foldlM_countReport_run : ∀ {ds : List (Ref .dictionary)} {as : List Attempt}
    {nodes visitors : List String} {byNode byVisitor : Dictionary},
    ds.map w.dictionaries.get = as.map report → Tallies nodes byNode → Tallies visitors byVisitor →
    ∃ byNode' byVisitor', ((ds.map Value.dictionary).foldlM countReport (byNode, byVisitor)).run w =
        (.ok (byNode', byVisitor'), w) ∧
      Tallies (nodes ++ as.map (·.nodeType)) byNode' ∧
      Tallies (visitors ++ as.map (·.visitorType)) byVisitor'
  | [], [], _, _, byNode, byVisitor, _, hn, hv =>
    ⟨byNode, byVisitor, rfl, by simpa using hn, by simpa using hv⟩
  | d :: ds, a :: as, nodes, visitors, byNode, byVisitor, h, hn, hv => by
    obtain ⟨hd, hds⟩ := List.cons.inj h
    obtain ⟨byNode', byVisitor', hrun, hn', hv'⟩ := foldlM_countReport_run hds
      (hn.countOne w.same_text a.nodeType) (hv.countOne w.same_text a.visitorType)
    refine ⟨byNode', byVisitor', ?_, by simpa using hn', by simpa using hv'⟩
    rw [List.map_cons, List.foldlM_cons, Act.run_bind, countReport_run hd]
    exact hrun
  | [], _ :: _, _, _, _, _, h, _, _ => by cases h
  | _ :: _, [], _, _, _, _, h, _, _ => by cases h

/-- **The reports of some attempts are counted by the classes of the nodes and by the classes of the
visitors.** -/
theorem count_run {ds : List (Ref .dictionary)} {as : List Attempt}
    (h : ds.map w.dictionaries.get = as.map report) :
    ∃ byNode byVisitor, (count (ds.map Value.dictionary)).run w = (.ok (byNode, byVisitor), w) ∧
      byNode.Tallies (as.map (·.nodeType)) ∧ byVisitor.Tallies (as.map (·.visitorType)) :=
  foldlM_countReport_run h Dictionary.tallies_empty Dictionary.tallies_empty

/-! ## The summary -/

/-- A dictionary is a summary of some attempts: it says how many there have been, how often they
concern each class of nodes and come from each class of visitors, and what the reports are. The
numbers in either table add up to the number of attempts. -/
def SumsUp (w : World ε) (s : Ref .dictionary) (reports : List Value) (as : List Attempt) : Prop :=
  ∃ (byNode byVisitor : Ref .dictionary) (whole : Ref .list),
    (w.dictionaries.get s).pairs = [(.text "total_attempts", .int as.length),
      (.text "by_node_type", .dictionary byNode), (.text "by_visitor_type", .dictionary byVisitor),
      (.text "reports", .list whole)] ∧
    (w.dictionaries.get byNode).Tallies (as.map (·.nodeType)) ∧
    (w.dictionaries.get byVisitor).Tallies (as.map (·.visitorType)) ∧
    (w.dictionaries.get byNode).total = as.length ∧
    (w.dictionaries.get byVisitor).total = as.length ∧
    w.items whole = reports

/-- Lists and dictionaries have been added, and nothing else has happened. -/
def Extends (w w' : World ε) : Prop :=
  ∃ (ls : Store .list (Array Value)) (ds : Store .dictionary Dictionary),
    w' = { w with lists := ls, dictionaries := ds } ∧ w.lists.Grows id ls ∧
      w.dictionaries.Grows id ds

open Act in
/-- **The reports of a policy are summed up**, and nothing else happens. -/
theorem summary_run {E : Ref .list → Prop} {p : Ref .policy} (hp : w.Files E p)
    {ds : List (Ref .dictionary)} {as : List Attempt} (hds : w.reports p = ds.map .dictionary)
    (has : ds.map w.dictionaries.get = as.map report) :
    ∃ s w', (summary p).run w = (.ok (.dictionary s), w') ∧ Extends w w' ∧
      SumsUp w' s (w.reports p) as := by
  obtain ⟨l, hl, -⟩ := hp.reports
  obtain ⟨k, hk⟩ := hp.lock
  have hgather : w.elementsOf (.list l) = .ok (w.reports p) := by
    rw [World.reports, hl]
    rfl
  have hlock : w.lockProblem? (.lock k) = none := rfl
  have hlength : (w.reports p).length = as.length := by
    rw [hds, List.length_map, ← List.length_map w.dictionaries.get, has, List.length_map]
  -- the list of all reports is copied before they are counted
  obtain ⟨byNode, byVisitor, hcount, hn, hv⟩ := count_run (w := (w.newList (w.reports p)).2) has
  rw [← hds] at hcount
  let d₁ := w.dictionaries.add byNode
  let d₂ := d₁.add byVisitor
  let d₃ := d₂.add (named [("total_attempts", .int as.length),
    ("by_node_type", .dictionary w.dictionaries.next), ("by_visitor_type", .dictionary d₁.next),
    ("reports", .list w.lists.next)])
  have hgrows₃ : d₂.Grows id d₃ := Store.grows_add ..
  have hgrows₂ : d₁.Grows id d₂ := Store.grows_add ..
  have hfirst : d₃.get w.dictionaries.next = byNode :=
    ((hgrows₂.trans hgrows₃).2 _ (Store.next_lt_add ..)).trans (Store.get_add_next ..)
  have hsecond : d₃.get d₁.next = byVisitor :=
    (hgrows₃.2 _ (Store.next_lt_add ..)).trans (Store.get_add_next ..)
  refine ⟨d₂.next, { w with lists := w.lists.add (w.reports p).toArray, dictionaries := d₃ },
    ?_, ⟨_, _, rfl, Store.grows_add .., ((Store.grows_add ..).trans hgrows₂).trans hgrows₃⟩,
    w.dictionaries.next, d₁.next, w.lists.next, ?_, ?_, ?_, ?_, ?_, ?_⟩
  · simp only [summary, run_bind, run_own, hk, hl, checkLock, run_look, hlock, gather, hgather,
      addList, addDictionary, run_make, hcount, hlength]
    rfl
  · exact (congrArg Dictionary.pairs (Store.get_add_next ..)).trans (pairs_named (by simp))
  · exact hfirst ▸ hn
  · exact hsecond ▸ hv
  · have htotal := hn.total_eq
    rw [List.length_map] at htotal
    exact hfirst ▸ htotal
  · have htotal := hv.total_eq
    rw [List.length_map] at htotal
    exact hsecond ▸ htotal
  · simp [World.items, Store.get_add]

end Reports

end GuardedWalk

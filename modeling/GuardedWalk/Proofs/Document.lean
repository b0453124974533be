import GuardedWalk.Proofs.World.Guarding

/-!
# Documents and what a walk says about them

A document as it is written, apart from the objects that stand for it: which parts each node has,
and in which order a walk goes through them. Nodes are trees here; one that is shared between
several places stands in each of them. What a walk says about a document follows the grammar: what
is announced is announced before and after all that it consists of.

## Main definitions

* `GuardedWalk.Document` — the documents.
* `GuardedWalk.Notice`, `GuardedWalk.around` — the beginnings and the ends of what is announced.
* `GuardedWalk.Document.inside` — what a walk says about the parts of a document.
* `GuardedWalk.Document.Stored`, `Fits` — the objects of a world stand for a document.
-/

set_option autoImplicit false

namespace GuardedWalk

/-- The heading of a scenario or a background. -/
structure Heading where
  keyword : Value
  name : Value
  fileColonLine : Value
  sourceIndent : Value

/-- The heading as arguments of an event. -/
def Heading.values (h : Heading) : List Value :=
  [h.keyword, h.name, h.fileColonLine, h.sourceIndent]

/-- A node with all that it consists of. A node is given with the object that stands for it, and
with the list that it keeps its parts in, if it does. -/
inductive Document where
  | features (r : Ref .node) (l : Ref .list) (features : List Document)
  | feature (r : Ref .node) (name : Value) (l : Ref .list) (elements : List Document)
    (background comment tags : Option Document)
  | comment (r : Ref .node) (l : Ref .list) (lines : List Value)
  | tags (r : Ref .node) (l : Ref .list) (names : List Value)
  | steps (r : Ref .node) (l : Ref .list) (steps : List Document)
  | step (r : Ref .node) (keyword stepMatch : Value) (argument : Option Document)
    (status exception sourceIndent background : Value)
  | background (r : Ref .node) (heading : Heading) (steps : Document)
  | scenario (r : Ref .node) (heading : Heading) (steps : Document)
    (comment tags : Option Document)
  | scenarioOutline (r : Ref .node) (heading : Heading) (steps : Document)
    (comment tags : Option Document) (examplesArray : Document)
  | examplesArray (r : Ref .node) (l : Ref .list) (examples : List Document)
  | examples (r : Ref .node) (keyword name : Value) (table : Document)
  | tableCell (r : Ref .node) (value status : Value)
  | tableRow (r : Ref .node) (l : Ref .list) (cells : List Document)
  | table (r : Ref .node) (l : Ref .list) (rows : List Document)
  | outlineTable (r : Ref .node) (l : Ref .list) (rows : List Document)
  | pyString (r : Ref .node) (text : Value)

/-- The beginning or the end of what is announced. -/
inductive Notice where
  /-- An event begins. -/
  | before (e : Event) (args : List Value)
  /-- An event ends. -/
  | after (e : Event)
deriving DecidableEq, Repr

/-- What is said about an event within which something else is said. -/
def around (e : Event) (args : List Value) (inner : List Notice) : List Notice :=
  .before e args :: inner ++ [.after e]

/-- Whether an entry method is given a node and lets it hand its parts on. -/
def Event.entersNode (e : Event) : Bool := e.isComposite && e ≠ .stepResult

namespace Document

/-- The object that stands for a node. -/
def ref : Document → Ref .node
  | features r .. | feature r .. | comment r .. | tags r .. | steps r .. | step r ..
  | background r .. | scenario r .. | scenarioOutline r .. | examplesArray r .. | examples r ..
  | tableCell r .. | tableRow r .. | table r .. | outlineTable r .. | pyString r _ => r

/-- The node as a value. -/
def value (d : Document) : Value := .node d.ref

/-- A part that may be absent, as a value. -/
def valueIf : Option Document → Value
  | none => .none
  | some d => d.value

/-- The class of a node. -/
def cls : Document → DocumentClass
  | features .. => .features
  | feature .. => .feature
  | comment .. => .comment
  | tags .. => .tags
  | steps .. => .steps
  | step .. => .step
  | background .. => .background
  | scenario .. => .scenario
  | scenarioOutline .. => .scenarioOutline
  | examplesArray .. => .examplesArray
  | examples .. => .examples
  | tableCell .. => .tableCell
  | tableRow .. => .tableRow
  | table .. => .table
  | outlineTable .. => .outlineTable
  | pyString .. => .pyString

/-! ## What a walk says -/

mutual

/-- What a walk says about the parts of a node. -/
def inside : Document → List Notice
  | features _ _ ds => each .feature ds
  | feature _ name _ elements b c t =>
    ifPresent .comment c ++ ifPresent .tags t ++ around .featureName [name] [] ++
      ifPresent .background b ++ each .featureElement elements
  | comment _ _ lines => lines.flatMap fun line => around .commentLine [line] []
  | tags _ _ names => names.flatMap fun name => around .tagName [name] []
  | steps _ _ ds => each .step ds
  | step _ keyword stepMatch argument status exception sourceIndent inBackground =>
    around .stepResult
      [keyword, stepMatch, valueIf argument, status, exception, sourceIndent, inBackground]
      (around .stepName [keyword, stepMatch, status, sourceIndent, inBackground] [] ++
        ifPresent .multilineArg argument ++
        if exception = .none then [] else around .exception [exception, status] [])
  | background _ heading ss =>
    around .backgroundName heading.values [] ++ around .steps [ss.value] (inside ss)
  | scenario _ heading ss c t =>
    ifPresent .comment c ++ ifPresent .tags t ++ around .scenarioName heading.values [] ++
      around .steps [ss.value] (inside ss)
  | scenarioOutline _ heading ss c t es =>
    ifPresent .comment c ++ ifPresent .tags t ++ around .scenarioName heading.values [] ++
      around .steps [ss.value] (inside ss) ++ around .examplesArray [es.value] (inside es)
  | examplesArray _ _ ds => each .examples ds
  | examples _ keyword name d =>
    around .examplesName [keyword, name] [] ++ around .outlineTable [d.value] (inside d)
  | tableCell _ v status => around .tableCellValue [v, status] []
  | tableRow _ _ ds => each .tableCell ds
  | table _ _ ds => each .tableRow ds
  | outlineTable _ _ ds => each .tableRow ds
  | pyString _ text => around .pyString [text] []

/-- What a walk says about nodes that are announced one after the other under an event. -/
def each (e : Event) : List Document → List Notice
  | [] => []
  | d :: rest => around e [d.value] (inside d) ++ each e rest

/-- What a walk says about a node that may be absent and is announced under an event. -/
def ifPresent (e : Event) : Option Document → List Notice
  | none => []
  | some d => around e [d.value] (inside d)

end

/-! ## Objects for a document -/

mutual

/-- A node and all that it consists of, at any depth. -/
def all : Document → List Document
  | d@(features _ _ ds) | d@(steps _ _ ds) | d@(examplesArray _ _ ds) | d@(tableRow _ _ ds)
  | d@(table _ _ ds) | d@(outlineTable _ _ ds) => d :: allOf ds
  | d@(feature _ _ _ elements b c t) => d :: (allOf elements ++ allIf b ++ allIf c ++ allIf t)
  | d@(step _ _ _ argument _ _ _ _) => d :: allIf argument
  | d@(background _ _ ss) => d :: all ss
  | d@(scenario _ _ ss c t) => d :: (all ss ++ allIf c ++ allIf t)
  | d@(scenarioOutline _ _ ss c t es) => d :: (all ss ++ allIf c ++ allIf t ++ all es)
  | d@(examples _ _ _ rows) => d :: all rows
  | d@(comment ..) | d@(tags ..) | d@(tableCell ..) | d@(pyString ..) => [d]

/-- All that some nodes consist of. -/
def allOf : List Document → List Document
  | [] => []
  | d :: rest => all d ++ allOf rest

/-- All that a node consists of that may be absent. -/
def allIf : Option Document → List Document
  | none => []
  | some d => all d

end

theorem mem_all_self (d : Document) : d ∈ d.all := by
  cases d <;> simp [all]

/-- What a field of a node contains. -/
inductive Content where
  /-- A value. -/
  | value (v : Value)
  /-- A list and its elements. -/
  | list (l : Ref .list) (vs : List Value)

/-- The fields of a heading. -/
def headingContents (h : Heading) : List (String × Content) :=
  [("keyword", .value h.keyword), ("name", .value h.name),
   ("file_colon_line", .value h.fileColonLine), ("source_indent", .value h.sourceIndent)]

/-- The fields of a scenario of either kind. -/
def scenarioContents (h : Heading) (ss : Document) (c t : Option Document) :
    List (String × Content) :=
  headingContents h ++
    [("steps", .value ss.value), ("comment", .value (valueIf c)), ("tags", .value (valueIf t))]

/-- What the fields of a node contain. -/
def contents : Document → List (String × Content)
  | features _ l ds => [("features", .list l (ds.map value))]
  | feature _ name l elements b c t =>
    [("name", .value name), ("feature_elements", .list l (elements.map value)),
     ("background", .value (valueIf b)), ("comment", .value (valueIf c)),
     ("tags", .value (valueIf t))]
  | comment _ l lines => [("lines", .list l lines)]
  | tags _ l names => [("names", .list l names)]
  | steps _ l ds => [("steps", .list l (ds.map value))]
  | step _ keyword stepMatch argument status exception sourceIndent inBackground =>
    [("keyword", .value keyword), ("step_match", .value stepMatch),
     ("multiline_arg", .value (valueIf argument)), ("status", .value status),
     ("exception", .value exception), ("source_indent", .value sourceIndent),
     ("background", .value inBackground)]
  | background _ heading ss => headingContents heading ++ [("steps", .value ss.value)]
  | scenario _ heading ss c t => scenarioContents heading ss c t
  | scenarioOutline _ heading ss c t es =>
    scenarioContents heading ss c t ++ [("examples_array", .value es.value)]
  | examplesArray _ l ds => [("examples", .list l (ds.map value))]
  | examples _ keyword name d =>
    [("keyword", .value keyword), ("name", .value name), ("outline_table", .value d.value)]
  | tableCell _ v status => [("value", .value v), ("status", .value status)]
  | tableRow _ l ds => [("cells", .list l (ds.map value))]
  | table _ l ds | outlineTable _ l ds => [("rows", .list l (ds.map value))]
  | pyString _ text => [("text", .value text)]

/-- What a node announces that is no node itself, as far as it comes first among the arguments of an
event. -/
def leaves : Document → List Value
  | feature _ name .. => [name]
  | comment _ _ lines => lines
  | tags _ _ names => names
  | step _ keyword _ _ _ exception _ _ => [keyword, exception]
  | background _ heading _ | scenario _ heading _ _ _ | scenarioOutline _ heading _ _ _ _ =>
    [heading.keyword]
  | examples _ keyword _ _ => [keyword]
  | tableCell _ v _ => [v]
  | pyString _ text => [text]
  | features .. | steps .. | examplesArray .. | tableRow .. | table .. | outlineTable .. => []

variable {ε : Type}

/-- The lists that there are as long as there are `n` of them. -/
instance : Coe Nat (Ref .list → Prop) := ⟨fun n l => l.index < n⟩

/-- A field of a node contains something; lists are among those that belong to documents. -/
def Keeps (D : Ref .list → Prop) (w : World ε) (r : Ref .node) (field : String) : Content → Prop
  | .value v => w.fieldOf r field = v
  | .list l vs => w.fieldOf r field = .list l ∧ D l ∧ w.items l = vs

/-- An object stands for a node. What comes first among the arguments of an event is no node of a
foreign class. -/
structure Stored (D : Ref .list → Prop) (w : World ε) (d : Document) : Prop where
  cls : (w.nodes.get d.ref).cls = .document d.cls
  contents : ∀ p ∈ d.contents, Keeps D w d.ref p.1 p.2
  leaves : ∀ v ∈ d.leaves, w.Plain v
  coherent : w.Coherent d.ref

/-- The objects of a world stand for a document. -/
def Fits (D : Ref .list → Prop) (w : World ε) (root : Document) : Prop :=
  ∀ d ∈ root.all, Stored D w d

/-- The objects of a world stand for a document, and no node of it has ever been guarded. -/
structure Pristine (D : Ref .list → Prop) (w : World ε) (root : Document) : Prop where
  cls : ∀ d ∈ root.all, (w.nodes.get d.ref).cls = .document d.cls
  contents : ∀ d ∈ root.all, ∀ p ∈ d.contents, Keeps D w d.ref p.1 p.2
  leaves : ∀ d ∈ root.all, ∀ v ∈ d.leaves, w.Plain v
  unguarded : ∀ d ∈ root.all, ∀ name ∈ Node.marks, (w.carried (.node d.ref)).get? name = none

theorem Pristine.fits {D : Ref .list → Prop} {w : World ε} {root : Document}
    (h : root.Pristine D w) : root.Fits D w := by
  intro d hd
  refine ⟨h.cls d hd, h.contents d hd, h.leaves d hd, .bare ?_ ?_⟩
  · exact h.unguarded d hd _ Node.acceptField_mem_marks
  · exact h.unguarded d hd _ Node.guardField_mem_marks

/-! ### What stays as it is -/

section Frames

variable {w w' : World ε} {V : Value → Prop} {D : Ref .list → Prop} {root : Document}

theorem fieldOf_eq {r : Ref .node} {c : DocumentClass}
    (hc : (w.nodes.get r).cls = .document c) (field : String) :
    w.fieldOf r field = (w.carried (.node r)).value field := by
  simp [World.fieldOf, World.carried, World.own?, hc, NodeClass.hasAttributes]

/-- A field of a node contains the same as long as the attribute and the list in it stay. -/
theorem Keeps.frame {r : Ref .node} {c : DocumentClass} {field : String} {content : Content}
    (hk : Keeps D w r field content) (hc : (w.nodes.get r).cls = .document c)
    (hf : World.Frame V w w')
    (hfield : (w'.carried (.node r)).get? field = (w.carried (.node r)).get? field)
    (hlist : ∀ l : Ref .list, D l → w.fieldOf r field = .list l →
      w'.items l = w.items l) : Keeps D w' r field content := by
  have hsame : w'.fieldOf r field = w.fieldOf r field := by
    rw [fieldOf_eq ((hf.nodes r).trans hc), fieldOf_eq hc, Attributes.value, Attributes.value,
      hfield]
  cases content with
  | value v => exact hsame.trans hk
  | list l vs =>
    obtain ⟨hl, hb, hitems⟩ := hk
    exact ⟨hsame.trans hl, hb, (hlist l hb hl).trans hitems⟩

/-- The names of the fields of documents are none that guards use. -/
theorem name_not_mem_marks {d : Document} {p : String × Content} (hp : p ∈ d.contents) :
    p.1 ∉ Node.marks := by
  have h : ∀ p ∈ d.contents, p.1 ∉ Node.marks := by
    cases d <;>
      simp [contents, headingContents, scenarioContents, Node.marks, Node.acceptField,
        Node.guardField, Message.name]
  exact h p hp

/-- A document stands as it is written as long as its nodes and their lists stay. -/
theorem Fits.frame (hd : root.Fits D w) (hf : World.Frame V w w')
    (hfields : ∀ d ∈ root.all, ∀ name ∉ Node.marks,
      (w'.carried (.node d.ref)).get? name = (w.carried (.node d.ref)).get? name)
    (hlists : ∀ d ∈ root.all, ∀ name, ∀ l : Ref .list, D l →
      w.fieldOf d.ref name = .list l → w'.items l = w.items l)
    (hcoherent : ∀ d ∈ root.all, w.Coherent d.ref → w'.Coherent d.ref) : root.Fits D w' := by
  intro d hmem
  have hs := hd d hmem
  refine ⟨(hf.nodes d.ref).trans hs.cls, fun p hp => ?_, fun v hv => (hs.leaves v hv).frame hf,
    hcoherent d hmem hs.coherent⟩
  exact (hs.contents p hp).frame hs.cls hf (hfields d hmem p.1 (name_not_mem_marks hp))
    fun l => hlists d hmem p.1 l

theorem Fits.mild (hd : root.Fits D w) (hm : World.Mild w w')
    (hc : ∀ d ∈ root.all, w.Coherent d.ref → w'.Coherent d.ref) : root.Fits D w' :=
  hd.frame hm.toFrame (fun _ _ => hm.carried _ rfl)
    (fun _ _ _ l _ _ => by simp [World.items, hm.lists]) hc

/-- A node of a document is traversed as its class says. -/
theorem Stored.marked {d : Document} (h : Stored D w d) : w.Marked d.ref none :=
  World.marked_none_iff.2 ⟨h.coherent, by simp [World.understands, h.cls]⟩

/-- Marks that belong together still do, if this is so for all nodes with a known traversal. -/
theorem Stored.coherent_of_marked {d : Document} (h : Stored D w d)
    (hm : w.Marked d.ref none → w'.Marked d.ref none) : w'.Coherent d.ref :=
  (World.marked_none_iff.1 (hm h.marked)).1

end Frames

instance (D : Ref .list → Prop) [DecidablePred D] (w : World ε) (r : Ref .node) (field : String) :
    ∀ c : Content, Decidable (Keeps D w r field c)
  | .value v => inferInstanceAs (Decidable (w.fieldOf r field = v))
  | .list l vs =>
    inferInstanceAs (Decidable (w.fieldOf r field = .list l ∧ D l ∧ w.items l = vs))

/-! ## A small document -/

/-- A feature with a tag and with one scenario, whose only step has a text as its argument. -/
def login : Document :=
  .features ⟨0⟩ ⟨0⟩ [.feature ⟨1⟩ (.text "Login") ⟨1⟩
    [.scenario ⟨2⟩ ⟨.text "Scenario", .text "Sign in", .text "login.feature:3", .int 2⟩
      (.steps ⟨3⟩ ⟨2⟩ [.step ⟨4⟩ (.text "Given ") .none
        (some (.pyString ⟨5⟩ (.text "a letter"))) (.text "passed") .none (.int 4) .none]) none none]
    none none (some (.tags ⟨6⟩ ⟨3⟩ [.text "slow"]))]

/-- The object that stands for a node that has just been made. -/
def object (d : Document) : Node where
  cls := .document d.cls
  attributes := d.contents.map fun
    | (field, .value v) => (field, v)
    | (field, .list l _) => (field, .list l)

/-- A world in which there is nothing but the small document. -/
def loginWorld : World Unit :=
  { World.empty () with
    nodes := ⟨(login.all.map object).toArray⟩
    lists := ⟨#[#[.node ⟨1⟩], #[.node ⟨2⟩], #[.node ⟨4⟩], #[.text "slow"]]⟩ }

example : login.Pristine (4 : Nat) loginWorld := by
  constructor <;> decide

/-- Nobody has put a guard on a node of the small document, whatever else there is. -/
theorem login_unguarded {w : World ε} (hn : w.nodes = loginWorld.nodes) {r : Ref .node}
    (hr : r.index < 7) :
    (w.own? (.node r)).isSome ∧ w.Marked r none ∧ w.tag? (.node r) = none := by
  have hall : ∀ i < 7, (loginWorld.own? (.node ⟨i⟩)).isSome ∧
      (loginWorld.carried (.node ⟨i⟩)).get? Node.acceptField = none ∧
      (loginWorld.carried (.node ⟨i⟩)).get? Node.guardField = none ∧
      loginWorld.understands (.node ⟨i⟩) .accept = true := by decide
  obtain ⟨hown, haccept, hguard, hunderstands⟩ := hall r.index hr
  have hsame : w.own? (.node r) = loginWorld.own? (.node r) := by simp only [World.own?, hn]
  have hmarks : w.carried (.node r) = loginWorld.carried (.node r) := by
    simp only [World.carried, hsame]
  refine ⟨by rwa [hsame], World.marked_none_iff.2 ⟨.bare ?_ ?_, ?_⟩, ?_⟩
  · rwa [hmarks]
  · rwa [hmarks]
  · simpa only [World.understands, hn] using hunderstands
  · rwa [World.tag?, hsame]

end Document

end GuardedWalk

import Mathlib.Data.List.Forall2
import XmlMapping.Mapping.Definitions
import XmlMapping.Proofs.Mapping.Ending

/-! # Replacing references

A mapping in which references are replaced by the mappings that they stand for is related to the one before, for
every relation between runs that goes through `bind`: the two make related runs of a node when what the references
make is related at the nodes that the paths to them lead to. -/

namespace XmlMapping

/-! ### The paths to references -/

mutual

/-- The paths that are followed to the references in a mapping, one list for each reference. -/
def Mapping.trails : Mapping → List (List String)
  | .text _ => []
  | .node _ => []
  | .object bindings => trailsIn bindings
  | .array path element => element.trails.map (path :: ·)
  | .deferred _ => [[]]

/-- The paths that are followed to the references in a binding. -/
def Binding.trails : Binding → List (List String)
  | .textAt _ _ => []
  | .mappedAt _ path element => element.trails.map (path :: ·)
  | .here _ element => element.trails

/-- The paths that are followed to the references in the bindings of an object. -/
def trailsIn : List Binding → List (List String)
  | [] => []
  | binding :: bindings => binding.trails ++ trailsIn bindings

end

section
variable (d : Document) (b : Bindings) (P : Node → Prop)

/-- Following paths one after the other leads to nodes of a kind only. -/
def LeadsTo : List String → Node → Prop
  | [], n => P n
  | path :: trail, n => ∀ ns, selectAt d b path n = .ok ns → ∀ m ∈ ns, LeadsTo trail m

/-- The references in a mapping that is applied to a node are applied to nodes of a kind only. -/
def Mapping.DefersTo (m : Mapping) (n : Node) : Prop :=
  ∀ trail ∈ m.trails, LeadsTo d b P trail n

end

section
variable {d : Document} {b : Bindings} {path : String} {n : Node}

theorem holds_of_mem_selectAt {ns : List Node} (hn : d.Holds n) (h : selectAt d b path n = .ok ns) :
    ∀ m ∈ ns, d.Holds m := by
  obtain ⟨e, -, hselect⟩ := selectAt_eq_ok.mp h
  exact e.holds_of_mem_evaluate hn (e.evaluate_of_select hselect).2

theorem leadsTo_holds (trail : List String) (hn : d.Holds n) : LeadsTo d b d.Holds trail n := by
  induction trail generalizing n with
  | nil => exact hn
  | cons path trail ih => exact fun ns hns m hm => ih (holds_of_mem_selectAt hn hns m hm)

theorem Mapping.defersTo_holds (m : Mapping) (hn : d.Holds n) : m.DefersTo d b d.Holds n :=
  fun trail _ => leadsTo_holds trail hn

end

/-! ### Replacing -/

section
variable (lookup : Reference → Option Mapping)

mutual

/-- A mapping with some of the references in it replaced by the mappings they stand for, and so on in these. -/
inductive Mapping.Unrolls : Mapping → Mapping → Prop
  | text (convert : TextConversion) : Mapping.Unrolls (.text convert) (.text convert)
  | node (convert : NodeConversion) : Mapping.Unrolls (.node convert) (.node convert)
  | object {bindings bindings' : List Binding} :
      BindingsUnroll bindings bindings' → Mapping.Unrolls (.object bindings) (.object bindings')
  | array (path : String) {element element' : Mapping} :
      Mapping.Unrolls element element' → Mapping.Unrolls (.array path element) (.array path element')
  | deferred (reference : Reference) : Mapping.Unrolls (.deferred reference) (.deferred reference)
  | replaced {reference : Reference} {m m' : Mapping} :
      lookup reference = some m → Mapping.Unrolls m m' → Mapping.Unrolls (.deferred reference) m'

/-- A binding with references in it replaced. -/
inductive Binding.Unrolls : Binding → Binding → Prop
  | textAt (key path : String) : Binding.Unrolls (.textAt key path) (.textAt key path)
  | mappedAt (key path : String) {element element' : Mapping} :
      Mapping.Unrolls element element' → Binding.Unrolls (.mappedAt key path element) (.mappedAt key path element')
  | here (key : String) {element element' : Mapping} :
      Mapping.Unrolls element element' → Binding.Unrolls (.here key element) (.here key element')

/-- The bindings of an object with references in them replaced. -/
inductive BindingsUnroll : List Binding → List Binding → Prop
  | nil : BindingsUnroll [] []
  | cons {binding binding' : Binding} {bindings bindings' : List Binding} :
      Binding.Unrolls binding binding' → BindingsUnroll bindings bindings' →
      BindingsUnroll (binding :: bindings) (binding' :: bindings')

end

end

variable {lookup : Reference → Option Mapping}

mutual

theorem Mapping.Unrolls.refl : ∀ m : Mapping, m.Unrolls lookup m
  | .text convert => .text convert
  | .node convert => .node convert
  | .object bindings => .object (.refl bindings)
  | .array path element => .array path (.refl element)
  | .deferred reference => .deferred reference

theorem Binding.Unrolls.refl : ∀ binding : Binding, binding.Unrolls lookup binding
  | .textAt key path => .textAt key path
  | .mappedAt key path element => .mappedAt key path (.refl element)
  | .here key element => .here key (.refl element)

theorem BindingsUnroll.refl : ∀ bindings : List Binding, BindingsUnroll lookup bindings bindings
  | [] => .nil
  | binding :: bindings => .cons (.refl binding) (.refl bindings)

end

/-- Definitions with references in them replaced, by what they stand for in the definitions before. -/
def Definitions.Unrolls (defs defs' : Definitions) : Prop :=
  List.Forall₂ (fun x y => x.1 = y.1 ∧ x.2.Unrolls defs.get? y.2) defs defs'

theorem Definitions.Unrolls.refl (defs : Definitions) : defs.Unrolls defs :=
  List.forall₂_same.mpr fun x _ => ⟨rfl, .refl x.2⟩

theorem rel_lookup {xs ys : Definitions} (h : List.Forall₂ (fun x y => x.1 = y.1 ∧ x.2.Unrolls lookup y.2) xs ys)
    (name : String) : Option.Rel (Mapping.Unrolls lookup) (xs.lookup name) (ys.lookup name) := by
  induction h with
  | nil => exact .none
  | @cons x y xs ys hxy _ ih =>
    obtain ⟨key, m⟩ := x
    obtain ⟨_, m'⟩ := y
    obtain ⟨rfl, hm⟩ := hxy
    rw [List.lookup_cons, List.lookup_cons]
    cases name == key with
    | true => exact .some hm
    | false => exact ih

theorem Definitions.Unrolls.get? {defs defs' : Definitions} (h : defs.Unrolls defs') (reference : Reference) :
    Option.Rel (Mapping.Unrolls defs.get?) (defs.get? reference) (defs'.get? reference) := by
  cases reference with
  | nodeTree => exact .some (.refl _)
  | named name => exact rel_lookup h name

theorem Binding.Unrolls.key_eq {binding binding' : Binding} (h : binding.Unrolls lookup binding') :
    binding'.key = binding.key := by
  cases h <;> rfl

/-! ### From references to mappings -/

/-- A relation between runs that holds of what references make of nodes of a kind, kept or replaced. -/
structure Run.Carries (Rel : (α : Type) → Run α → Run α → Prop) (lookup : Reference → Option Mapping) (d : Document)
    (b : Bindings) (P : Node → Prop) (resolve resolve' : Reference → Node → Run Json) : Prop extends Run.Composes Rel where
  kept : ∀ reference n, P n → Rel Json (resolve reference n) (resolve' reference n)
  replaced : ∀ reference m n r, P n → lookup reference = some m →
    (m.DefersTo d b P n → Rel Json (m.apply resolve d b n) r) → Rel Json (resolve reference n) r

section
variable {Rel : (α : Type) → Run α → Run α → Prop} {d : Document} {b : Bindings} {P : Node → Prop}
  {resolve resolve' : Reference → Node → Run Json}

-- The recursion is on how the references are replaced, so that it goes on in a mapping put in the place of one.
mutual

/-- What relates the runs of references relates those of a mapping and of the mapping with references replaced. -/
theorem Run.Carries.apply (h : Run.Carries Rel lookup d b P resolve resolve') {m m' : Mapping} :
    m.Unrolls lookup m' → ∀ {n : Node}, m.DefersTo d b P n →
    Rel Json (m.apply resolve d b n) (m'.apply resolve' d b n)
  | .text _, _, _ => h.refl (Conversion.ends_run _ _)
  | .node _, _, _ => h.refl (Conversion.ends_run _ _)
  | .object hbindings, _, hdefers => h.map Json.object (h.membersOf hbindings hdefers)
  | .array _ helement, _, hdefers => h.map Json.array <| h.itemsAt fun ns hns x hx =>
    h.apply helement fun _ htrail => hdefers _ (List.mem_map_of_mem htrail) ns hns x hx
  | .deferred reference, n, hdefers => h.kept reference n (hdefers [] (List.mem_singleton_self _))
  | .replaced hget hm, n, hdefers =>
    h.replaced _ _ n _ (hdefers [] (List.mem_singleton_self _)) hget fun hdefers' => h.apply hm hdefers'

theorem Run.Carries.applyBinding (h : Run.Carries Rel lookup d b P resolve resolve') {binding binding' : Binding} :
    binding.Unrolls lookup binding' → ∀ {n : Node}, (∀ trail ∈ binding.trails, LeadsTo d b P trail n) →
    Rel Json (binding.apply resolve d b n) (binding'.apply resolve' d b n)
  | .textAt _ _, _, _ => h.firstAt fun _ _ _ _ => h.refl (Run.ends_done _)
  | .mappedAt _ _ helement, _, hdefers => h.firstAt fun ns hns x hx =>
    h.apply helement fun _ htrail => hdefers _ (List.mem_map_of_mem htrail) ns hns x hx
  | .here _ helement, _, hdefers => h.apply helement hdefers

theorem Run.Carries.membersOf (h : Run.Carries Rel lookup d b P resolve resolve') {bindings bindings' : List Binding} :
    BindingsUnroll lookup bindings bindings' → ∀ {n : Node}, (∀ trail ∈ trailsIn bindings, LeadsTo d b P trail n) →
    Rel _ (membersOf resolve d b bindings n) (membersOf resolve' d b bindings' n)
  | .nil, _, _ => h.refl (Run.ends_done [])
  | .cons hbinding hbindings, _, hdefers => by
    obtain ⟨hfirst, hrest⟩ := List.forall_mem_append.mp hdefers
    rw [XmlMapping.membersOf, XmlMapping.membersOf, hbinding.key_eq]
    exact h.bind (h.applyBinding hbinding hfirst) fun v _ => h.map _ (h.membersOf hbindings hrest)

end

theorem Run.Composes.carries (h : Run.Composes Rel)
    (hkept : ∀ reference n, P n → Rel Json (resolve reference n) (resolve' reference n)) :
    Run.Carries Rel (fun _ => none) d b P resolve resolve' :=
  ⟨h, hkept, nofun⟩

theorem Run.Composes.apply (h : Run.Composes Rel)
    (hkept : ∀ reference n, P n → Rel Json (resolve reference n) (resolve' reference n)) (m : Mapping) {n : Node}
    (hdefers : m.DefersTo d b P n) : Rel Json (m.apply resolve d b n) (m.apply resolve' d b n) :=
  (h.carries hkept).apply (.refl m) hdefers

end

end XmlMapping

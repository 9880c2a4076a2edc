import Mathlib.Data.Finset.Card
import Mathlib.Data.List.Forall2
import Mathlib.Data.List.Induction
import XmlMapping.Proofs.Mapping.Paths

/-! # Declarations

A declaration adds its key at the end of the keys, or keeps the keys as they are when its key is declared
already. So the keys of a sequence of declarations are distinct, in the order in which they are first
declared, and each has the binding that is declared for it last. The object that a sequence of declarations
maps to has these keys in this order, each with what its binding makes of the node; or there is none, and
the first binding that fails gives the error. Declarations with bindings that come to the same make the
same object. -/

namespace XmlMapping

/-! ### Runs one after the other -/

section
variable {α β γ : Type} {f : α → Run β} {as : List α} {e : Error}

theorem Run.bind_map (r : Run α) (g : α → β) (next : β → Run γ) : (r.map g).bind next = r.bind fun a => next (g a) := by
  obtain ⟨warnings, _ | a⟩ := r <;> rfl

/-- All runs come to something when each of them does. -/
theorem Run.result_each_eq_ok {bs : List β} :
    (Run.each f as).result = .ok bs ↔ List.Forall₂ (fun a b => (f a).result = .ok b) as bs := by
  induction as generalizing bs with
  | nil =>
    rw [List.forall₂_nil_left_iff]
    exact ⟨fun h => (Except.ok.inj h).symm, fun h => h ▸ rfl⟩
  | cons a as ih =>
    rw [each, result_bind, List.forall₂_cons_left_iff]
    refine except_bind_eq_ok.trans ?_
    simp only [result_map, except_map_eq_ok, ih]
    constructor
    · rintro ⟨b, hb, bs, hbs, rfl⟩
      exact ⟨b, bs, hb, hbs, rfl⟩
    · rintro ⟨b, bs, hb, hbs, rfl⟩
      exact ⟨b, hb, bs, hbs, rfl⟩

/-- The first run that fails gives the error. -/
theorem Run.result_each_eq_error : (Run.each f as).result = .error e ↔
    ∃ before a after, as = before ++ a :: after ∧ (∀ x ∈ before, ∃ b, (f x).result = .ok b) ∧
      (f a).result = .error e := by
  induction as with
  | nil =>
    constructor
    · intro h
      cases h
    · rintro ⟨before, a, after, heq, -⟩
      cases before <;> cases heq
  | cons a as ih =>
    rw [each, result_bind]
    refine except_bind_eq_error.trans ?_
    simp only [result_map, except_map_eq_error, ih]
    constructor
    · rintro (ha | ⟨b, hb, before, x, after, rfl, hbefore, hx⟩)
      · exact ⟨[], a, as, rfl, List.forall_mem_nil _, ha⟩
      · exact ⟨a :: before, x, after, rfl, List.forall_mem_cons.mpr ⟨⟨b, hb⟩, hbefore⟩, hx⟩
    · rintro ⟨before, x, after, heq, hbefore, hx⟩
      cases before with
      | nil =>
        obtain ⟨rfl, rfl⟩ := List.cons_eq_cons.mp heq
        exact Or.inl hx
      | cons first before =>
        obtain ⟨rfl, rfl⟩ := List.cons_eq_cons.mp heq
        obtain ⟨⟨b, hb⟩, hbefore⟩ := List.forall_mem_cons.mp hbefore
        exact Or.inr ⟨b, hb, before, x, after, rfl, hbefore, hx⟩

end

/-! ### Members -/

section
variable {resolve : Reference → Node → Run Json} {d : Document} {b : Bindings} {n : Node} {bindings : List Binding}

theorem membersOf_eq_each : membersOf resolve d b bindings n =
    Run.each (fun binding => (binding.apply resolve d b n).map (Prod.mk binding.key)) bindings := by
  induction bindings with
  | nil => rfl
  | cons binding bindings ih => rw [membersOf, Run.each, Run.bind_map, ih]

/-- The members that bindings make of a node: one for each binding, in order, with its key and what it makes. -/
def MembersMade (resolve : Reference → Node → Run Json) (d : Document) (b : Bindings) (n : Node)
    (bindings : List Binding) (members : List (String × Json)) : Prop :=
  List.Forall₂ (fun binding member => member.1 = binding.key ∧ (binding.apply resolve d b n).result = .ok member.2)
    bindings members

theorem result_membersOf_eq_ok {members : List (String × Json)} :
    (membersOf resolve d b bindings n).result = .ok members ↔ MembersMade resolve d b n bindings members := by
  rw [membersOf_eq_each, Run.result_each_eq_ok, MembersMade]
  refine iff_of_eq (congrFun₂ (congrArg List.Forall₂ ?_) bindings members)
  funext binding member
  rw [Run.result_map, except_map_eq_ok, eq_iff_iff]
  constructor
  · rintro ⟨v, hv, rfl⟩
    exact ⟨rfl, hv⟩
  · rintro ⟨hkey, hv⟩
    exact ⟨member.2, hv, by rw [← hkey]⟩

theorem Mapping.result_object_eq_ok {v : Json} : ((Mapping.object bindings).apply resolve d b n).result = .ok v ↔
    ∃ members, v = .object members ∧ MembersMade resolve d b n bindings members := by
  rw [Mapping.apply, Run.result_map, except_map_eq_ok]
  simp only [result_membersOf_eq_ok]
  exact exists_congr fun members => and_comm.trans (and_congr_left' eq_comm)

theorem MembersMade.keys {members : List (String × Json)} (h : MembersMade resolve d b n bindings members) :
    members.map Prod.fst = bindings.map Binding.key := by
  induction h with
  | nil => rfl
  | cons hmember _ ih => rw [List.map_cons, List.map_cons, ih, hmember.1]

end

/-! ### One declaration -/

variable {binding : Binding} {bindings declarations : List Binding} {key : String}

theorem keys_declare (binding : Binding) (bindings : List Binding) : (declare binding bindings).map Binding.key =
    if binding.key ∈ bindings.map Binding.key then bindings.map Binding.key
    else bindings.map Binding.key ++ [binding.key] := by
  induction bindings with
  | nil => rfl
  | cons other others ih =>
    rw [declare]
    by_cases hkey : other.key = binding.key
    · rw [if_pos hkey, List.map_cons, List.map_cons, hkey, if_pos List.mem_cons_self]
    · rw [if_neg hkey, List.map_cons, List.map_cons, ih]
      by_cases hmem : binding.key ∈ others.map Binding.key
      · rw [if_pos hmem, if_pos (List.mem_cons_of_mem _ hmem)]
      · have hnot : binding.key ∉ other.key :: others.map Binding.key := fun h =>
          (List.mem_cons.mp h).elim (fun h => hkey h.symm) hmem
        rw [if_neg hmem, if_neg hnot, List.cons_append]

/-- The binding for a key. -/
def bindingFor? (key : String) (bindings : List Binding) : Option Binding :=
  bindings.find? (·.key == key)

theorem bindingFor?_cons (binding : Binding) (bindings : List Binding) : bindingFor? key (binding :: bindings) =
    if binding.key = key then some binding else bindingFor? key bindings := by
  rw [bindingFor?, List.find?_cons]
  by_cases hkey : binding.key = key
  · rw [if_pos hkey, beq_iff_eq.mpr hkey]
  · rw [if_neg hkey, beq_eq_false_iff_ne.mpr hkey]
    rfl

theorem bindingFor?_declare (binding : Binding) (bindings : List Binding) :
    bindingFor? key (declare binding bindings) =
      if binding.key = key then some binding else bindingFor? key bindings := by
  induction bindings with
  | nil => exact bindingFor?_cons binding []
  | cons other others ih =>
    rw [declare]
    by_cases hkey : other.key = binding.key
    · rw [if_pos hkey, bindingFor?_cons, bindingFor?_cons, hkey]
      by_cases h : binding.key = key
      · rw [if_pos h, if_pos h]
      · rw [if_neg h, if_neg h, if_neg h]
    · rw [if_neg hkey, bindingFor?_cons, ih, bindingFor?_cons]
      by_cases h : binding.key = key
      · rw [if_pos h, if_neg fun hother => hkey (hother.trans h.symm), if_pos h]
      · rw [if_neg h, if_neg h]

/-! ### Sequences of declarations -/

theorem declareAll_append_one (declarations : List Binding) (binding : Binding) :
    declareAll (declarations ++ [binding]) = declare binding (declareAll declarations) :=
  List.foldl_concat ..

theorem nodup_keys_declareAll (declarations : List Binding) : ((declareAll declarations).map Binding.key).Nodup := by
  induction declarations using List.reverseRecOn with
  | nil => exact List.nodup_nil
  | append_singleton declarations binding ih =>
    rw [declareAll_append_one, keys_declare]
    split
    · exact ih
    · next hnew =>
      exact List.nodup_append.mpr ⟨ih, List.nodup_singleton _, fun key hkey other hother hsame =>
        hnew (List.mem_singleton.mp hother ▸ hsame ▸ hkey)⟩

theorem eraseDups_append_one (keys : List String) (key : String) : (keys ++ [key]).eraseDups =
    if key ∈ keys then keys.eraseDups else keys.eraseDups ++ [key] := by
  rw [List.eraseDups_append]
  by_cases hmem : key ∈ keys
  · have hold : [key].removeAll keys = [] := by simp [List.removeAll, hmem]
    rw [if_pos hmem, hold, List.eraseDups_nil, List.append_nil]
  · have hnew : [key].removeAll keys = [key] := by simp [List.removeAll, hmem]
    rw [if_neg hmem, hnew]
    rfl

/-- The keys stand in the order of their first declarations. -/
theorem keys_declareAll (declarations : List Binding) :
    (declareAll declarations).map Binding.key = (declarations.map Binding.key).eraseDups := by
  induction declarations using List.reverseRecOn with
  | nil => rfl
  | append_singleton declarations binding ih =>
    rw [declareAll_append_one, keys_declare, ih, List.map_append, List.map_singleton, eraseDups_append_one]
    simp only [List.mem_eraseDups]

/-- Each key has the binding that is declared for it last. -/
theorem bindingFor?_declareAll (key : String) (declarations : List Binding) :
    bindingFor? key (declareAll declarations) = bindingFor? key declarations.reverse := by
  induction declarations using List.reverseRecOn with
  | nil => rfl
  | append_singleton declarations binding ih =>
    rw [declareAll_append_one, bindingFor?_declare, ih, List.reverse_append, List.reverse_singleton,
      List.singleton_append, bindingFor?_cons]

theorem length_declareAll (declarations : List Binding) :
    (declareAll declarations).length = (declarations.map Binding.key).toFinset.card := by
  have hkeys : (declarations.map Binding.key).toFinset = ((declareAll declarations).map Binding.key).toFinset := by
    ext key
    rw [List.mem_toFinset, List.mem_toFinset, keys_declareAll, List.mem_eraseDups]
  rw [hkeys, List.toFinset_card_of_nodup (nodup_keys_declareAll declarations), List.length_map]

/-! ### Declarations that come to the same -/

theorem declare_forall₂ {R : Binding → Binding → Prop} (hkeys : ∀ x y, R x y → x.key = y.key) {x y : Binding}
    {xs ys : List Binding} (hxy : R x y) (h : List.Forall₂ R xs ys) :
    List.Forall₂ R (declare x xs) (declare y ys) := by
  induction h with
  | nil => exact .cons hxy .nil
  | cons hother hothers ih =>
    rw [declare, declare, hkeys _ _ hother, hkeys _ _ hxy]
    split
    · exact .cons hxy hothers
    · exact .cons hother ih

theorem declareAll_forall₂ {R : Binding → Binding → Prop} (hkeys : ∀ x y, R x y → x.key = y.key)
    {xs ys : List Binding} (h : List.Forall₂ R xs ys) : List.Forall₂ R (declareAll xs) (declareAll ys) := by
  have hstep : Relator.LiftFun (List.Forall₂ R) (Relator.LiftFun R (List.Forall₂ R))
      (fun bindings binding => declare binding bindings) (fun bindings binding => declare binding bindings) :=
    fun _ _ hsofar _ _ hxy => declare_forall₂ hkeys hxy hsofar
  exact List.rel_foldl hstep .nil h

/-- Two bindings have one key and come to the same for a node. -/
def SameBinding (resolve : Reference → Node → Run Json) (d : Document) (b : Bindings) (n : Node) (x y : Binding) :
    Prop :=
  x.key = y.key ∧ x.apply resolve d b n = y.apply resolve d b n

theorem Mapping.apply_ofDeclarations_congr {resolve : Reference → Node → Run Json} {d : Document} {b : Bindings}
    {n : Node} {xs ys : List Binding} (h : List.Forall₂ (SameBinding resolve d b n) xs ys) :
    (Mapping.ofDeclarations xs).apply resolve d b n = (Mapping.ofDeclarations ys).apply resolve d b n := by
  have hmembers : ∀ {xs ys}, List.Forall₂ (SameBinding resolve d b n) xs ys →
      membersOf resolve d b xs n = membersOf resolve d b ys n := fun h => by
    induction h with
    | nil => rfl
    | cons hxy _ ih => rw [membersOf, membersOf, ih, hxy.1, hxy.2]
  rw [Mapping.ofDeclarations, Mapping.ofDeclarations, Mapping.apply, Mapping.apply,
    hmembers (declareAll_forall₂ (fun _ _ hxy => hxy.1) h)]

/-! ### The object of a sequence of declarations -/

/-- The bindings of a sequence of declarations have distinct keys, in the order of their first declarations, and
    each is the one that is declared for its key last. From every node the mapping gives the object with these
    keys in this order and what their bindings make of the node, when they all make something, and otherwise the
    error of the first binding that fails. -/
theorem ofDeclarations_object (declarations : List Binding) :
    ((declareAll declarations).map Binding.key).Nodup ∧
      (declareAll declarations).map Binding.key = (declarations.map Binding.key).eraseDups ∧
      (∀ key, bindingFor? key (declareAll declarations) = bindingFor? key declarations.reverse) ∧
      (declareAll declarations).length = (declarations.map Binding.key).toFinset.card ∧
      ∀ resolve d b n,
        ((∃ members, ((Mapping.ofDeclarations declarations).apply resolve d b n).result = .ok (.object members) ∧
            members.map Prod.fst = (declarations.map Binding.key).eraseDups ∧
            MembersMade resolve d b n (declareAll declarations) members) ∨
          ∃ e, ((Mapping.ofDeclarations declarations).apply resolve d b n).result = .error e ∧
            FirstFails resolve d b n (declareAll declarations) e) := by
  refine ⟨nodup_keys_declareAll declarations, keys_declareAll declarations,
    fun key => bindingFor?_declareAll key declarations, length_declareAll declarations, fun resolve d b n => ?_⟩
  cases hresult : ((Mapping.ofDeclarations declarations).apply resolve d b n).result with
  | ok v =>
    obtain ⟨members, rfl, hmade⟩ := Mapping.result_object_eq_ok.mp hresult
    exact Or.inl ⟨members, rfl, hmade.keys.trans (keys_declareAll declarations), hmade⟩
  | error e => exact Or.inr ⟨e, rfl, Mapping.result_object_eq_error.mp hresult⟩

end XmlMapping

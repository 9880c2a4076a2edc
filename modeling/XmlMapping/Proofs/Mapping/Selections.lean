import XmlMapping.Proofs.Mapping.Declarations

/-! # Selections

An array maps every node that its path selects, and a binding to a path the first of them. So the two agree:
an object with one binding holds the first item of the array over the same path, or null when the array is
empty, and it fails only when the array fails, with the same error. Where a selected node cannot be mapped,
the array fails with the error of the first such node in document order. A binding to the text of a path is
a binding to the plain text mapping over it, wherever it is declared. -/

namespace XmlMapping

section
variable {resolve : Reference → Node → Run Json} {d : Document} {b : Bindings} {path key : String} {n : Node}
  {element : Mapping} {e : Error} {ns : List Node}

/-! ### Selecting -/

/-- The nodes that a path selects stand in document order. -/
theorem ordered_selectAt (h : selectAt d b path n = .ok ns) : Ordered ns := by
  obtain ⟨_, -, hselect⟩ := selectAt_eq_ok.mp h
  simp only [XPath.Expr.select, except_bind_eq_ok] at hselect
  obtain ⟨_, -, ms, -, hns⟩ := hselect
  obtain rfl := Except.ok.inj hns
  exact ordered_inDocumentOrder ms

/-! ### Arrays -/

/-- What an element makes of a node. -/
abbrev Mapping.makes (resolve : Reference → Node → Run Json) (d : Document) (b : Bindings) (element : Mapping)
    (m : Node) : Except Error Json :=
  (element.apply resolve d b m).result

theorem Mapping.result_array_of_selectAt (h : selectAt d b path n = .ok ns) :
    (Mapping.array path element).makes resolve d b n =
      (Run.each (element.apply resolve d b) ns).result.map .array := by
  rw [makes, Mapping.apply, Run.result_map, itemsAt, Run.result_bind, h]
  rfl

theorem Mapping.result_array_eq_ok {v : Json} : (Mapping.array path element).makes resolve d b n = .ok v ↔
    ∃ ns vs, selectAt d b path n = .ok ns ∧ v = .array vs ∧
      List.Forall₂ (fun m v => element.makes resolve d b m = .ok v) ns vs := by
  constructor
  · intro h
    rcases selectAt_cases d b path n with ⟨ns, hns⟩ | ⟨cause, hcause⟩
    · rw [result_array_of_selectAt hns, except_map_eq_ok] at h
      obtain ⟨vs, hvs, rfl⟩ := h
      exact ⟨ns, vs, hns, rfl, Run.result_each_eq_ok.mp hvs⟩
    · rw [makes, result_array_of_error hcause] at h
      cases h
  · rintro ⟨ns, vs, hns, rfl, hvs⟩
    rw [result_array_of_selectAt hns, Run.result_each_eq_ok.mpr hvs]
    rfl

theorem Mapping.result_array_eq_error (h : selectAt d b path n = .ok ns) :
    (Mapping.array path element).makes resolve d b n = .error e ↔
      ∃ before m after, ns = before ++ m :: after ∧ (∀ x ∈ before, ∃ v, element.makes resolve d b x = .ok v) ∧
        element.makes resolve d b m = .error e := by
  rw [result_array_of_selectAt h, except_map_eq_error, Run.result_each_eq_error]

/-! ### Objects with one binding -/

theorem Mapping.result_object_one (binding : Binding) : (Mapping.object [binding]).makes resolve d b n =
    (binding.apply resolve d b n).result.map fun v => .object [(binding.key, v)] := by
  rw [makes, Mapping.apply, membersOf, membersOf, Run.result_map, Run.result_bind]
  cases (binding.apply resolve d b n).result <;> rfl

theorem result_firstOf (make : Node → Run Json) (ns : List Node) :
    (firstOf key path make ns).result = ns.head?.elim (.ok .null) fun m => (make m).result := by
  rcases ns with _ | ⟨m, _ | ⟨m', ns⟩⟩ <;> rfl

/-- The binding to a path maps the first node that the path selects. -/
theorem Mapping.result_object_of_selectAt (h : selectAt d b path n = .ok ns) :
    (Mapping.object [.mappedAt key path element]).makes resolve d b n =
      (ns.head?.elim (.ok .null) (element.makes resolve d b)).map fun v => .object [(key, v)] := by
  have hfirst : (firstAt d b key path (element.apply resolve d b) n).result =
      (firstOf key path (element.apply resolve d b) ns).result := by
    rw [firstAt, Run.result_bind, h]
    rfl
  rw [result_object_one, Binding.apply, hfirst, result_firstOf]
  rfl

theorem Mapping.result_object_of_error (h : selectAt d b path n = .error e) :
    (Mapping.object [.mappedAt key path element]).makes resolve d b n = .error e := by
  rw [result_object_one, Binding.result_of_error rfl h]
  rfl

/-! ### Arrays and objects -/

theorem Mapping.object_of_array {vs : List Json} (h : (Mapping.array path element).makes resolve d b n = .ok (.array vs)) :
    (Mapping.object [.mappedAt key path element]).makes resolve d b n =
      .ok (.object [(key, vs.head?.getD .null)]) := by
  obtain ⟨ns, vs', hns, hvs, hmade⟩ := result_array_eq_ok.mp h
  obtain rfl := Json.array.inj hvs
  rw [result_object_of_selectAt hns]
  cases hmade with
  | nil => rfl
  | @cons m v ns vs hm _ =>
    show (element.makes resolve d b m).map _ = _
    rw [hm]
    rfl

theorem Mapping.array_of_object_error (h : (Mapping.object [.mappedAt key path element]).makes resolve d b n = .error e) :
    (Mapping.array path element).makes resolve d b n = .error e := by
  rcases selectAt_cases d b path n with ⟨ns, hns⟩ | ⟨cause, hcause⟩
  · rw [result_object_of_selectAt hns, except_map_eq_error] at h
    cases ns with
    | nil => cases h
    | cons m ns => exact (result_array_eq_error hns).mpr ⟨[], m, ns, rfl, List.forall_mem_nil _, h⟩
  · rw [result_object_of_error hcause] at h
    rw [makes, result_array_of_error hcause, h]

/-- When the element fails at a selected node, the array fails as it does at the first such node. -/
theorem Mapping.array_fails_first {m : Node} (hns : selectAt d b path n = .ok ns) (hm : m ∈ ns)
    (he : element.makes resolve d b m = .error e) :
    ∃ before first after e', ns = before ++ first :: after ∧
      (∀ x ∈ before, ∃ v, element.makes resolve d b x = .ok v) ∧ element.makes resolve d b first = .error e' ∧
      (Mapping.array path element).makes resolve d b n = .error e' := by
  cases hresult : (Mapping.array path element).makes resolve d b n with
  | error e' =>
    obtain ⟨before, first, after, hsplit, hbefore, hfirst⟩ := (result_array_eq_error hns).mp hresult
    exact ⟨before, first, after, e', hsplit, hbefore, hfirst, rfl⟩
  | ok v =>
    obtain ⟨ns', vs, hns', -, hmade⟩ := result_array_eq_ok.mp hresult
    obtain rfl := Except.ok.inj (hns.symm.trans hns')
    obtain ⟨i, rfl⟩ := List.mem_iff_get.mp hm
    have hmakes := hmade.get i.isLt (hmade.length_eq ▸ i.isLt)
    rw [he] at hmakes
    cases hmakes

/-- The object fails only when the element fails at the first selected node. -/
theorem Mapping.first_of_object_error {m : Node} (hns : selectAt d b path n = .ok (m :: ns))
    (h : (Mapping.object [.mappedAt key path element]).makes resolve d b n = .error e) :
    element.makes resolve d b m = .error e := by
  rwa [result_object_of_selectAt hns, except_map_eq_error] at h

/-! ### Texts -/

theorem SameBinding.refl (resolve : Reference → Node → Run Json) (d : Document) (b : Bindings) (n : Node)
    (binding : Binding) : SameBinding resolve d b n binding binding :=
  ⟨rfl, rfl⟩

/-- A binding to the text of a path is a binding to the plain text mapping over it. -/
theorem sameBinding_textAt (resolve : Reference → Node → Run Json) (d : Document) (b : Bindings) (key path : String)
    (n : Node) : SameBinding resolve d b n (.textAt key path) (.mappedAt key path .plainText) :=
  ⟨rfl, rfl⟩

theorem Mapping.apply_textAt (resolve : Reference → Node → Run Json) (d : Document) (b : Bindings) (key path : String)
    (n : Node) (before after : List Binding) :
    (Mapping.ofDeclarations (before ++ .textAt key path :: after)).apply resolve d b n =
      (Mapping.ofDeclarations (before ++ .mappedAt key path .plainText :: after)).apply resolve d b n := by
  have hrefl : ∀ bindings, List.Forall₂ (SameBinding resolve d b n) bindings bindings := fun bindings =>
    List.forall₂_same.mpr fun binding _ => .refl resolve d b n binding
  refine apply_ofDeclarations_congr (List.rel_append (hrefl before) ?_)
  exact .cons (sameBinding_textAt resolve d b key path n) (hrefl after)

end

/-- The object with one binding to a path holds the first item of the array over the path, or null when the array
    is empty, and it fails only as the array does. The array has an item for each node that the path selects, in
    document order, and it fails as its element does at the first of them that the element fails at; the object
    fails then only if that is the first one selected. A binding to the text of a path makes of no node anything
    else than one to the plain text mapping over it. -/
theorem object_takes_first (resolve : Reference → Node → Run Json) (d : Document) (b : Bindings) (path key : String)
    (element : Mapping) (n : Node) :
    ((Mapping.array path element).makes resolve d b n = .ok (.array []) →
        (Mapping.object [.mappedAt key path element]).makes resolve d b n = .ok (.object [(key, .null)])) ∧
      (∀ v vs, (Mapping.array path element).makes resolve d b n = .ok (.array (v :: vs)) →
        (Mapping.object [.mappedAt key path element]).makes resolve d b n = .ok (.object [(key, v)])) ∧
      (∀ e, (Mapping.object [.mappedAt key path element]).makes resolve d b n = .error e →
        (Mapping.array path element).makes resolve d b n = .error e) ∧
      (∀ v, (Mapping.array path element).makes resolve d b n = .ok v ↔
        ∃ ns vs, selectAt d b path n = .ok ns ∧ Ordered ns ∧ v = .array vs ∧ vs.length = ns.length ∧
          List.Forall₂ (fun m v => element.makes resolve d b m = .ok v) ns vs) ∧
      (∀ ns, selectAt d b path n = .ok ns → ∀ m ∈ ns, ∀ e, element.makes resolve d b m = .error e →
        ∃ before first after e', ns = before ++ first :: after ∧
          (∀ x ∈ before, ∃ v, element.makes resolve d b x = .ok v) ∧
          element.makes resolve d b first = .error e' ∧
          (Mapping.array path element).makes resolve d b n = .error e' ∧
          ∀ e'', (Mapping.object [.mappedAt key path element]).makes resolve d b n = .error e'' → before = []) ∧
      ∀ before after, (Mapping.ofDeclarations (before ++ .textAt key path :: after)).apply resolve d b n =
        (Mapping.ofDeclarations (before ++ .mappedAt key path .plainText :: after)).apply resolve d b n := by
  refine ⟨Mapping.object_of_array, fun v vs => Mapping.object_of_array, fun e => Mapping.array_of_object_error,
    fun v => ?_, fun ns hns m hm e he => ?_, Mapping.apply_textAt resolve d b key path n⟩
  · rw [Mapping.result_array_eq_ok]
    refine exists_congr fun ns => exists_congr fun vs => and_congr_right fun hns => ?_
    constructor
    · rintro ⟨rfl, hmade⟩
      exact ⟨ordered_selectAt hns, rfl, hmade.length_eq.symm, hmade⟩
    · rintro ⟨-, rfl, -, hmade⟩
      exact ⟨rfl, hmade⟩
  · obtain ⟨before, first, after, e', rfl, hbefore, hfirst, harray⟩ := Mapping.array_fails_first hns hm he
    refine ⟨before, first, after, e', rfl, hbefore, hfirst, harray, fun e'' hobject => ?_⟩
    cases before with
    | nil => rfl
    | cons x before =>
      -- The element makes something of the first selected node, so the object does not fail.
      obtain ⟨v, hv⟩ := hbefore x List.mem_cons_self
      rw [Mapping.first_of_object_error hns hobject] at hv
      cases hv

/-- `<a><b>1</b><b>x</b></a>` -/
def countedDocument : Document :=
  ⟨[.element ⟨⟨none, "a"⟩, [], []⟩
    [.element ⟨⟨none, "b"⟩, [], []⟩ [.text "1"], .element ⟨⟨none, "b"⟩, [], []⟩ [.text "x"]]]⟩

/-- What an element makes of a node of this document. -/
abbrev countedMakes (element : Mapping) (n : Node) : Except Error Json :=
  element.makes (resolve [] countedDocument .empty) countedDocument .empty n

/-- From `a`: no `c`, two texts, an element that fails at both `b`, and whole numbers, which fail at the second. -/
theorem object_takes_first_counted :
    countedMakes (.array "c" .plainText) (.ofPath [0]) = .ok (.array []) ∧
      countedMakes (.object [.mappedAt "k" "c" .plainText]) (.ofPath [0]) = .ok (.object [("k", .null)]) ∧
      countedMakes (.array "b" .plainText) (.ofPath [0]) = .ok (.array [.string "1", .string "x"]) ∧
      countedMakes (.object [.mappedAt "k" "b" .plainText]) (.ofPath [0]) = .ok (.object [("k", .string "1")]) ∧
      countedMakes (.object [.mappedAt "k" "b" (.text (.refuse "no"))]) (.ofPath [0]) =
        .error (.conversion "1" (.refused "no")) ∧
      countedMakes (.array "b" (.text (.refuse "no"))) (.ofPath [0]) = .error (.conversion "1" (.refused "no")) ∧
      selectAt countedDocument .empty "b" (.ofPath [0]) = .ok [.ofPath [0, 0], .ofPath [1, 0]] ∧
      countedMakes .integer (.ofPath [1, 0]) = .error (.conversion "x" (.integer .invalidDigit)) ∧
      ∃ before first after e, [Node.ofPath [0, 0], .ofPath [1, 0]] = before ++ first :: after ∧
        (∀ x ∈ before, ∃ v, countedMakes .integer x = .ok v) ∧ countedMakes .integer first = .error e ∧
        countedMakes (.array "b" .integer) (.ofPath [0]) = .error e ∧
        ∀ e', countedMakes (.object [.mappedAt "k" "b" .integer]) (.ofPath [0]) = .error e' → before = [] := by
  have hnone : countedMakes (.array "c" .plainText) (.ofPath [0]) = .ok (.array []) := by with_unfolding_all rfl
  have htexts : countedMakes (.array "b" .plainText) (.ofPath [0]) = .ok (.array [.string "1", .string "x"]) := by
    with_unfolding_all rfl
  have hrefused : countedMakes (.object [.mappedAt "k" "b" (.text (.refuse "no"))]) (.ofPath [0]) =
      .error (.conversion "1" (.refused "no")) := by with_unfolding_all rfl
  have hselect : selectAt countedDocument .empty "b" (.ofPath [0]) = .ok [.ofPath [0, 0], .ofPath [1, 0]] := by
    with_unfolding_all rfl
  have hinteger : countedMakes .integer (.ofPath [1, 0]) = .error (.conversion "x" (.integer .invalidDigit)) := by
    with_unfolding_all rfl
  have takes := fun path element =>
    object_takes_first (resolve [] countedDocument .empty) countedDocument .empty path "k" element (.ofPath [0])
  exact ⟨hnone, (takes "c" .plainText).1 hnone, htexts, (takes "b" .plainText).2.1 _ _ htexts,
    hrefused, (takes "b" (.text (.refuse "no"))).2.2.1 _ hrefused, hselect, hinteger,
    (takes "b" .integer).2.2.2.2.1 _ hselect (.ofPath [1, 0]) (List.mem_cons_of_mem _ List.mem_cons_self) _ hinteger⟩

end XmlMapping

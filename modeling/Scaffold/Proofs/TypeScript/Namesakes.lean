import Scaffold.Proofs.TypeScript.References

/-!
Types of one name in several namespaces. A reference is passed over when the type that it leads to has the name of
the type that refers, be it that type itself or a namesake elsewhere: a type never imports a namesake, and every
other type that it refers to it does import.
-/

namespace Scaffold.TypeScript

open Scaffold.Graph

variable {g : TypeGraph} {c : Config} {d t : TypeDescriptor} {p : PropertyDescriptor}
  {enums models : String}

theorem target?_eq_some_iff_refers :
    Import.target? g p = some t ↔ Import.refers p.valueKind = true ∧ Linked g p t := by
  constructor
  · intro target
    have refers : Import.refers p.valueKind = true := by
      by_contra other
      rw [Import.target?, if_neg other] at target
      cases target
    exact ⟨refers, (target?_eq_some_iff fun _ _ => refers).mp target⟩
  · rintro ⟨refers, linked⟩
    exact (target?_eq_some_iff fun _ _ => refers).mpr linked

/-- The statements of a type are those of the types that its properties lead to, but for its namesakes. -/
theorem exists_statement_iff (aliases : Import.Aliases c enums models) {found : List (Import × String)}
    (resolved : Import.resolve g c d = .ok found) (line : String) :
    (∃ i ∈ found, i.2 = line) ↔ ∃ p ∈ d.properties, ∃ t, Import.refers p.valueKind = true ∧
      Linked g p t ∧ t.name ≠ d.name ∧ Import.statementOf enums models t = line := by
  obtain rfl := Except.ok.inj ((Import.resolve_eq aliases).symm.trans resolved)
  constructor
  · rintro ⟨i, mem, rfl⟩
    obtain ⟨t, first, rfl⟩ := List.mem_map.mp mem
    obtain ⟨led, other⟩ := List.mem_filter.mp (mem_firstsBy.mp first).1
    obtain ⟨p, memP, target⟩ := List.mem_filterMap.mp led
    obtain ⟨refers, linked⟩ := target?_eq_some_iff_refers.mp target
    exact ⟨p, memP, t, refers, linked, of_decide_eq_true other, rfl⟩
  · rintro ⟨p, memP, t, refers, linked, other, rfl⟩
    have target := target?_eq_some_iff_refers.mpr ⟨refers, linked⟩
    have led : t ∈ Import.targets g d :=
      List.mem_filter.mpr ⟨List.mem_filterMap.mpr ⟨p, memP, target⟩, decide_eq_true other⟩
    obtain ⟨u, first, same⟩ := exists_mem_firstsBy (f := Import.statementOf enums models) led
    exact ⟨_, List.mem_map.mpr ⟨u, first, rfl⟩, same⟩

/-- The imports of a type are resolved, and a statement is among them just if a property leads to a type of another
name with this statement. So, as long as no name holds what stands after a name in a statement, of the types that
its properties lead to exactly the namesakes are left out, in whatever namespace they are. -/
theorem imported_iff_not_namesake (g : TypeGraph) (d : TypeDescriptor)
    (aliases : Import.Aliases c enums models) :
    ∃ found, Import.resolve g c d = .ok found ∧
      (∀ line, (∃ i ∈ found, i.2 = line) ↔ ∃ p ∈ d.properties, ∃ t, Import.refers p.valueKind = true ∧
        Linked g p t ∧ t.name ≠ d.name ∧ Import.statementOf enums models t = line) ∧
      ((∀ t ∈ g.descriptors, ¬ Import.HoldsSeparator t.name) →
        ∀ p ∈ d.properties, p.isInterface = false → Import.refers p.valueKind = true →
          ∀ t, g.resolve? p = some t →
            ((∃ i ∈ found, i.2 = Import.statementOf enums models t) ↔ t.name ≠ d.name)) := by
  refine ⟨_, Import.resolve_eq aliases, exists_statement_iff aliases (Import.resolve_eq aliases), ?_⟩
  intro plain p memP direct refers t resolved
  rw [exists_statement_iff aliases (Import.resolve_eq aliases)]
  constructor
  · rintro ⟨q, -, u, -, linked, other, same⟩
    have plainU := plain u (TypeGraph.mem_of_resolve? linked.1)
    have plainT := plain t (TypeGraph.mem_of_resolve? resolved)
    rwa [← Import.importLine_inj plainU plainT same]
  · exact fun other => ⟨p, memP, t, refers, ⟨resolved, .inl direct⟩, other, rfl⟩

/-- An order of the shop refers to an order of the archive and to a line. It imports the line alone, although the
other order has a qualified name of its own and an import that could be stated. -/
theorem imported_iff_not_namesake_order :
    let archived : TypeDescriptor := { name := "Order", kind := .entity, namespace_ := "Archive" }
    let line : TypeDescriptor := { name := "Line", kind := .entity, namespace_ := "Shop" }
    let order : TypeDescriptor :=
      { name := "Order", kind := .entity, namespace_ := "Shop"
        properties := [
          { name := "Before", declaringType := "Order", valueKind := .entityReference
            typeName := "Archive.Order", elementName := some "Archive.Order"
            elementType := some "Archive.Order" },
          { name := "First", declaringType := "Order", valueKind := .entityReference
            typeName := "Line", elementName := some "Line", elementType := some "Shop.Line" }] }
    let graph := TypeGraph.ofList [order, archived, line]
    archived.qualifiedName ≠ order.qualifiedName ∧
    order.properties.map graph.resolve? = [some archived, some line] ∧
    Import.Aliases Config.default "@app-enums" "@app-models" ∧
    ∃ found, Import.resolve graph Config.default order = .ok found ∧
      (∃ i ∈ found, i.2 = "import \x7b Line \x7d from '@app-models/shop/line';") ∧
      ¬ ∃ i ∈ found, i.2 = "import \x7b Order \x7d from '@app-models/archive/order';" := by
  intro archived line order graph
  have aliases : Import.Aliases Config.default "@app-enums" "@app-models" :=
    ⟨Naming.pathPart_str _, Naming.pathPart_str _⟩
  obtain ⟨found, resolved, -, imported⟩ := imported_iff_not_namesake graph order aliases
  have plain : ∀ t ∈ graph.descriptors, ¬ Import.HoldsSeparator t.name := by
    have names : graph.descriptors.map (·.name) = ["Order", "Order", "Line"] := by decide +kernel
    have free : ∀ name ∈ ["Order", "Order", "Line"], ¬ Import.HoldsSeparator name := by
      unfold Import.HoldsSeparator
      decide +kernel
    exact fun t mem => free t.name (names ▸ List.mem_map_of_mem mem)
  have ofArchive : Import.statementOf "@app-enums" "@app-models" archived =
      "import \x7b Order \x7d from '@app-models/archive/order';" := by decide +kernel
  have ofLine : Import.statementOf "@app-enums" "@app-models" line =
      "import \x7b Line \x7d from '@app-models/shop/line';" := by decide +kernel
  have before := imported plain _ List.mem_cons_self rfl rfl archived rfl
  have first := imported plain _ (List.mem_cons_of_mem _ List.mem_cons_self) rfl rfl line rfl
  rw [ofArchive] at before
  rw [ofLine] at first
  exact ⟨by decide +kernel, rfl, aliases, found, resolved, first.mpr (by decide), fun there => before.mp there rfl⟩

/-- An order of the shop has a property of the class of orders of the archive. The type that the property resolves
to has another qualified name, and its import is not there. -/
theorem not_imported_of_namesake :
    let document : Json := .obj [("types", .arr [
      .obj [("name", .str "Order"), ("namespace", .str "Shop"), ("kind", .str "entity"),
        ("properties", .arr [
          .obj [("name", .str "Before"), ("type", .str "Archive.Order"), ("is_class", .bool true)]])],
      .obj [("name", .str "Order"), ("namespace", .str "Archive"), ("kind", .str "entity")]])]
    ∃ g, (extractDocument document [] fun _ => true).result = .ok g ∧
      ∃ d ∈ g.descriptors, ∃ p ∈ d.properties, p.isInterface = false ∧
        ∃ t, g.resolve? p = some t ∧ t.qualifiedName ≠ d.qualifiedName ∧
          ∃ found, Import.resolve g Config.default d = .ok found ∧
            ∀ i ∈ found, i.2 ≠ Import.statementOf "@app-enums" "@app-models" t := by
  intro document
  have checked : (extractDocument document [] fun _ => true).result.toOption.any (fun g =>
      g.descriptors.any fun d => d.properties.any fun p => decide (p.isInterface = false) &&
        (g.resolve? p).any fun t => decide (t.qualifiedName ≠ d.qualifiedName) &&
          (Import.resolve g Config.default d).toOption.any fun found =>
            decide (∀ i ∈ found, i.2 ≠ Import.statementOf "@app-enums" "@app-models" t)) = true := by
    decide +kernel
  obtain ⟨g, extracted, checked⟩ := exists_ok_of_any checked
  simp only [Bool.and_eq_true, decide_eq_true_eq, List.any_eq_true, Option.any_eq_true] at checked
  obtain ⟨d, mem, p, memP, direct, t, resolved, ne, found, imports, missing⟩ := checked
  exact ⟨g, extracted, d, mem, p, memP, direct, t, resolved, ne, found, eq_ok_of_toOption imports, missing⟩

end Scaffold.TypeScript

import Scaffold.Generation.Plan
import Scaffold.Proofs.Text.Marks

/-!
What theorems ask of the packages. The tree is left alone by what the program has rendered; a request is always
answered alike; the templates that are always there read as they are written; a plural has no brace and no line
end that the word has not. Each is asked of the engine that is in question, in the trees that it may see.
-/

namespace Scaffold

open Template

/-- What the program asks its engines for: the templates that are always there, each with its variables. -/
inductive Template.IsAsked : String → Context → Prop where
  | service (c : Config) (d : Graph.TypeDescriptor) :
    IsAsked "typescript/service.ts" (TypeScript.serviceContext c d)
  | serviceImports (c : Config) (d : Graph.TypeDescriptor) :
    IsAsked "typescript/service_imports.ts" (TypeScript.serviceContext c d)
  | inheritance (d : Graph.TypeDescriptor) (base : Json) :
    IsAsked "csharp/inheritance.cs" (CSharp.inheritanceContext d base)

/-- A kind of situations to be asked in: the requests before, and the tree. -/
abbrev Template.Situation := List Use → Tree → Prop

/-- A tree of one kind, after requests in trees of that kind. -/
def Template.Within (T : Tree → Prop) : Situation := fun uses t => T t ∧ ∀ use ∈ uses, T use.tree

/-- A request that leaves the tree as it is leaves a situation of the same kind. -/
class Template.Lasting (K : Situation) : Prop where
  next : ∀ {uses t} (r : Request), K uses t → K (⟨t, r⟩ :: uses) t

instance (T : Tree → Prop) : Lasting (Within T) :=
  ⟨fun _ within => ⟨within.1, List.forall_mem_cons.mpr ⟨within.1, within.2⟩⟩⟩

instance (t : Tree) : Lasting fun _ t' => t' = t := ⟨fun _ same => same⟩

theorem Template.Within.mono {T T' : Tree → Prop} (sub : ∀ t, T' t → T t) {uses : List Use} {t : Tree}
    (within : Within T' uses t) : Within T uses t := ⟨sub t within.1, fun use mem => sub _ (within.2 use mem)⟩

namespace Packages

/-- In situations of one kind, what the program asks of an engine leaves the tree as it is. -/
def Quiet (p : Packages) (e : Engine) (K : Situation) : Prop :=
  ∀ uses t user name context, K uses t → IsAsked name context →
    (p.answer uses t ⟨user, e, name, context⟩).tree = t

/-- In situations of one kind, what the program asks of an engine leaves the tree as it is, and a request always
gets the same text. -/
structure Steady (p : Packages) (e : Engine) (K : Situation) : Prop where
  quiet : p.Quiet e K
  repeats : ∀ uses t uses' t' user name context, K uses t → K uses' t' → IsAsked name context →
    (p.answer uses t ⟨user, e, name, context⟩).text = (p.answer uses' t' ⟨user, e, name, context⟩).text

theorem Quiet.mono {p : Packages} {e : Engine} {K K' : Situation} (h : p.Quiet e K)
    (sub : ∀ {uses t}, K' uses t → K uses t) : p.Quiet e K' :=
  fun uses t user name context kind => h uses t user name context (sub kind)

theorem Steady.mono {p : Packages} {e : Engine} {K K' : Situation} (h : p.Steady e K)
    (sub : ∀ {uses t}, K' uses t → K uses t) : p.Steady e K' :=
  ⟨h.quiet.mono sub, fun uses t uses' t' user name context kind kind' =>
    h.repeats uses t uses' t' user name context (sub kind) (sub kind')⟩

/-- No plural has a brace or a line end that the word has not. -/
def KeepsMarks (p : Packages) : Prop := ∀ word, Text.MarksIn (p.plural word).toList word.toList

/-- The plural that a template is given for a name; no name, no plural. -/
def pluralOf (p : Packages) (name : String) : String := if name = "" then "" else p.plural name

end Packages

/-! The lines of the templates that are always there. -/

namespace TypeScript

open Scaffold.Graph

/-- The line that opens the class of a service. -/
def serviceLine (d : TypeDescriptor) : String :=
  "export class " ++ d.name ++ "Service extends " ++ baseService d ++ "<" ++ d.name ++ "> \x7b"

/-- The line with the address that a service calls. -/
def addressLine (p : Packages) (d : TypeDescriptor) : String :=
  "    super(http, environment.API_BASE_URL + '/" ++ Text.lower (p.pluralOf d.name) ++ "');"

/-- The lines of a service above its class. -/
def decoratorLines : List String := ["@Injectable(\x7b", "  providedIn: 'root',", "\x7d)"]

/-- The lines of a service inside its class. -/
def constructorLines (p : Packages) (d : TypeDescriptor) : List String :=
  ["  constructor(public override http: HttpClient) \x7b", addressLine p d, "  \x7d"]

/-- The lines of a service. -/
def serviceLines (p : Packages) (d : TypeDescriptor) : List String :=
  decoratorLines ++ serviceLine d :: (constructorLines p d ++ ["\x7d"])

/-- The line that imports the base of a service. -/
def baseServiceLine (c : Config) (d : TypeDescriptor) : String :=
  importLine (baseService d) (c.serviceAlias.text ++ "/" ++ baseServiceModule (baseService d))

/-- The lines of the imports of every service. -/
def serviceImportLines (c : Config) (d : TypeDescriptor) : List String := [
  importLine "Injectable" "@angular/core", importLine "HttpClient" "@angular/common/http", baseServiceLine c d,
  importLine "environment" "@environment/environment"]

end TypeScript

namespace CSharp

/-- The lines of the part of a class that derives it from its base. -/
def inheritanceLines (d : Graph.TypeDescriptor) (base : Json) : List String :=
  ["partial class " ++ d.name ++ " : " ++ base.text, "\x7b", "\x7d"]

end CSharp

namespace Packages

variable {p : Packages} {K : Situation}

/-- Without a directory the templates that are always there read as they are written, with the text of each
variable in its place, in every tree and whatever was asked before. -/
structure RendersBuiltins (p : Packages) : Prop where
  service : ∀ uses t user c d,
    p.answer uses t ⟨user, ⟨none, builtins⟩, "typescript/service.ts", TypeScript.serviceContext c d⟩ =
      ⟨t, .ok ("\n".intercalate (TypeScript.serviceLines p d))⟩
  serviceImports : ∀ uses t user c d,
    p.answer uses t ⟨user, ⟨none, builtins⟩, "typescript/service_imports.ts", TypeScript.serviceContext c d⟩ =
      ⟨t, .ok ("\n".intercalate (TypeScript.serviceImportLines c d))⟩
  inheritance : ∀ uses t user d base,
    p.answer uses t ⟨user, ⟨none, builtins⟩, "csharp/inheritance.cs", CSharp.inheritanceContext d base⟩ =
      ⟨t, .ok ("\n".intercalate (CSharp.inheritanceLines d base))⟩

theorem RendersBuiltins.steady (h : p.RendersBuiltins) : p.Steady ⟨none, builtins⟩ K where
  quiet := by
    rintro uses t user _ _ - (⟨c, d⟩ | ⟨c, d⟩ | ⟨d, base⟩)
    · rw [h.service]
    · rw [h.serviceImports]
    · rw [h.inheritance]
  repeats := by
    rintro uses t uses' t' user _ _ - - (⟨c, d⟩ | ⟨c, d⟩ | ⟨d, base⟩)
    · rw [h.service, h.service]
    · rw [h.serviceImports, h.serviceImports]
    · rw [h.inheritance, h.inheritance]

end Packages

end Scaffold

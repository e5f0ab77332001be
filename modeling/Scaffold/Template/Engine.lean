import Scaffold.Packages

/-!
The engines of the program: the templates that are always there, which those of a directory win over, and
what is reported of a template that gives no text.
-/

namespace Scaffold.Template

def serviceTemplate : String :=
  "@Injectable(\x7b\n" ++
  "  providedIn: 'root',\n" ++
  "\x7d)\n" ++
  "export class \x7b\x7b entity_name \x7d\x7dService extends " ++
  "\x7b\x7b base_service \x7d\x7d<\x7b\x7b model_name \x7d\x7d> \x7b\n" ++
  "  constructor(public override http: HttpClient) \x7b\n" ++
  "    super(http, environment.API_BASE_URL + '/\x7b\x7b entity_name | plural | lower \x7d\x7d');\n" ++
  "  \x7d\n" ++
  "\x7d\n"

def serviceImportsTemplate : String :=
  "import \x7b Injectable \x7d from '@angular/core';\n" ++
  "import \x7b HttpClient \x7d from '@angular/common/http';\n" ++
  "import \x7b \x7b\x7b base_service \x7d\x7d \x7d from " ++
  "'\x7b\x7b service_alias \x7d\x7d/\x7b\x7b base_service_module \x7d\x7d';\n" ++
  "import \x7b environment \x7d from '@environment/environment';\n"

def inheritanceTemplate : String :=
  "partial class \x7b\x7b class_name \x7d\x7d : \x7b\x7b base_class \x7d\x7d\n" ++
  "\x7b\n" ++
  "\x7d\n"

/-- The templates that are always there. -/
def builtins : List (String × String) := [
  ("typescript/service.ts", serviceTemplate),
  ("typescript/service_imports.ts", serviceImportsTemplate),
  ("csharp/inheritance.cs", inheritanceTemplate)]

/-- An engine that looks into a directory, if that exists, and then among templates in memory. -/
def Engine.create (t : Tree) (directory : Option Path) (memory : List (String × String)) :
    Except FileError Engine :=
  match directory with
  | none => .ok ⟨none, memory⟩
  | some p => (t.exists? p).map fun isThere => ⟨if isThere then some p else none, memory⟩

structure RenderError where
  template : String
  problem : Problem

namespace RenderError

def message (e : RenderError) : String :=
  match e.problem with
  | .refused reason => "Failed to render template " ++ e.template ++ ": " ++ reason
  | .raised _ message _ => message

/-- The word for the kind of failure. -/
def name (e : RenderError) : String :=
  match e.problem with
  | .refused _ => "TemplateError"
  | .raised kind _ _ => kind

/-- The failure with its kind. -/
def details (e : RenderError) : String :=
  match e.problem with
  | .refused _ => e.name ++ "(" ++ Text.quoted e.message ++ ")"
  | .raised _ _ details => details

end RenderError

end Scaffold.Template

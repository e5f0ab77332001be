import Scaffold.Config.Validation
import Scaffold.Action
import Scaffold.Generation.Hook
import Scaffold.Generation.Target
import Scaffold.Region.File
import Scaffold.Settings.Resolver
import Scaffold.Template.Engine

/-!
A generator: a target with the configuration, hooks, packages and templates it works with. The settings, the
tree and what was asked of templates are the state of its actions.
-/

namespace Scaffold

/-- Why an artifact cannot be built. -/
inductive BuildError where
  | notEmitted (target : Target) (item : ItemKind)
  | namingCase (given : Json)
  | render (e : Template.RenderError)
  | region (e : Region.Failure)
  | hook (e : HookError)
  | misfit (what : Misfit)

namespace BuildError

def message : BuildError → String
  | .notEmitted target item => target.name ++ " does not emit " ++ item.name
  | .namingCase given => given.literal ++ " is not a valid NamingCase"
  | .render e => e.message
  | .region e => e.message
  | .hook e => e.message
  | .misfit what => what.message

/-- The word for the kind of failure. -/
def name : BuildError → String
  | .notEmitted .. => "ValueError"
  | .namingCase _ => "ValueError"
  | .render e => e.name
  | .region (.path _) => "ValueError"
  | .region (.read (.undecodable _)) => "UnicodeDecodeError"
  | .region (.read (.file e)) => e.obstacle.name
  | .hook _ => "RuntimeError"
  | .misfit what => what.name

/-- The failure with its kind, as details of a report. -/
def details : BuildError → String
  | .render e => e.details
  | .region (.read (.undecodable e)) => e.details
  | .region (.read (.file e)) => e.details
  | e => e.name ++ "(" ++ Text.quoted e.message ++ ")"

end BuildError

structure Generator where
  /-- The name that the generator was asked for by. -/
  name : String
  target : Target
  config : Config
  hooks : Hooks
  packages : Packages
  templates : Template.Engine

/-- What building works on and keeps from one artifact to the next: the settings with their answers, the
tree, and what the template engines were asked for. -/
structure Workshop where
  settings : Settings.Resolver
  tree : Tree
  /-- The latest request comes first. -/
  uses : List Template.Use := []

/-- A step of building an artifact. -/
abbrev Building := Action Workshop BuildError

/-- The workshop after a generator of this name was made anew. -/
def Workshop.renew (w : Workshop) (generator : String) : Workshop :=
  { w with uses := w.uses.filter fun use => use.request.user ≠ generator }

namespace Generator

/-- Why there is no generator. -/
inductive CreateError where
  | misfit (what : Misfit)
  | file (e : FileError)

/-- The directory of templates that the unknown options name. -/
def templateDirectory? (c : CustomOptions) : Except Misfit (Option Path) := do
  match (← c.get? "template_dir").getD .null with
  | .str s => return if s = "" then none else some (Path.ofText s)
  | v => if v.isSet then .error (.notPath v.kindName) else return none

/-- The engine of a configuration. Templates are looked for in a directory that is there now. -/
def engineFor (t : Tree) (config : Config) : Except CreateError Template.Engine := do
  let directory ← (templateDirectory? config.custom).mapError .misfit
  (Template.Engine.create t directory Template.builtins).mapError .file

/-- The generator of a target. -/
def create (packages : Packages) (t : Tree) (name : String) (target : Target) (config : Config)
    (hooks : Hooks) : Except CreateError Generator :=
  (engineFor t config).map fun templates => ⟨name, target, config, hooks, packages, templates⟩

def projectPath (g : Generator) : Except Misfit Path := g.config.projectPath g.target.unit.name

/-- The address of a setting of the target's unit. -/
def scope (g : Generator) (item : ItemKind) (identity key : String) : Settings.Scope :=
  ⟨g.target.unit.name, item.name, identity, .text key⟩

end Generator

namespace Building

open Settings

/-- A step that looks at the tree. -/
def looking {α : Type} (f : Tree → Outcome BuildError α) : Building α := fun w =>
  ⟨(f w.tree).notes, w, (f w.tree).result⟩

/-- Asks the settings. -/
def ask (q : Query) : Building Json := fun w =>
  let (value, notes, settings) := w.settings.query q
  ⟨notes, { w with settings }, .ok value⟩

/-- Answers some queries ahead of their use. -/
def prewarm (qs : List Query) : Building Unit := fun w =>
  let (notes, settings) := w.settings.prewarm qs
  ⟨notes, { w with settings }, .ok ()⟩

/-- Asks for a flag. -/
def askFlag (scope : Scope) (default : String) : Building Bool :=
  (ask { scope, default := .str default, type := .flag }).bind fun value => .ok value.isSet

/-- Asks for a text. -/
def askText (scope : Scope) (default : String) : Building String :=
  (ask { scope, default := .str default, type := .text }).bind fun value => .ok value.text

def warn (source message : String) : Building Unit := Action.note (.warn source message)

def orHook {α : Type} (r : Except HookError α) : Building α := Action.ofExcept (r.mapError .hook)

def orMisfit {α : Type} (r : Except Misfit α) : Building α := Action.ofExcept (r.mapError .misfit)

end Building

namespace Generator

/-- A new artifact of the target, after the hooks for the start. -/
def newArtifact (g : Generator) (item : ItemKind) (d : Graph.TypeDescriptor)
    (fullName subPath : Except Misfit String) : Building Artifact := do
  let fullName ← Building.orMisfit fullName
  let subPath ← Building.orMisfit subPath
  Building.orHook <| Hooks.runAll (.type d)
    { unit := g.target.unit, item, fullName, subPath, extension := g.target.extension }
    g.hooks.start

/-- The step of an item between its hooks; a hook may do it instead. -/
def betweenHooks (g : Generator) (item : ItemKind) (subject : Subject)
    (step : Artifact → Building Artifact) (a : Artifact) : Building Artifact := do
  let (a, done) ← Building.orHook (g.hooks.runBefore item a subject)
  let a ← if done then pure a else step a
  Building.orHook (g.hooks.runAfter item a subject)

/-- What the generator asks its engine for. -/
def request (g : Generator) (template : String) (context : Template.Context) : Template.Request :=
  ⟨g.name, g.templates, template, context⟩

/-- The lines of a template. -/
def templateLines (g : Generator) (template : String) (context : Template.Context) :
    Building (List String) := fun w =>
  let request := g.request template context
  let answer := g.packages.answer w.uses w.tree request
  ⟨[], { w with tree := answer.tree, uses := ⟨w.tree, request⟩ :: w.uses },
    (answer.text.map Text.splitLines).mapError fun problem => .render ⟨template, problem⟩⟩

end Generator

end Scaffold

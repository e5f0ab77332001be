import Scaffold.Command.Generate
import Scaffold.Output.Cleaning
import Scaffold.Region.File

/-!
The commands beside generation: telling about the targets, saving custom regions, and deleting generated files.
-/

namespace Scaffold.Command

def itemNames (target : Target) : String := ", ".intercalate (target.items.map ItemKind.name)

/-- The row of a target under its primary name. -/
def targetRow (name : String) (info : Registry.Info) : List String :=
  ["🔧 " ++ name, info.target.unit.name, info.target.extension, itemNames info.target,
    if info.aliases.isEmpty then "[dim]none[/dim]" else ", ".intercalate info.aliases]

def quickStart : Item :=
  .panel "💡 Quick Start"
    ("[bold]Usage:[/bold] typegen generate [dim]metadata.json[/dim] --target [cyan]TARGET[/cyan]\n" ++
      "[bold]Info:[/bold] typegen list-targets --info [cyan]TARGET[/cyan]")

/-- The targets of a registry with what is told about them. -/
def allInfo (r : Registry) : List (String × Registry.Info) :=
  r.names.filterMap fun name => (r.info name).toOption.map (name, ·)

def listAll (r : Registry) : Shown :=
  let infos := allInfo r
  if infos.isEmpty then ⟨[.line "[yellow]⚠️ No code generators available[/yellow]"], 0⟩
  else
    let table := .table "📋 Supported Targets" ["Target", "Unit", "Extension", "Items", "Aliases"]
      (infos.map fun (name, info) => targetRow name info)
    ⟨[.blank, table, .blank, quickStart], 0⟩

def infoPanel (info : Registry.Info) : Item :=
  .panel ("🔧 " ++ info.target.title ++ " Generator")
    ("\n".intercalate ([
      Item.fact "Target" info.target.name,
      Item.fact "Unit" info.target.unit.name,
      Item.fact "File Extension" info.target.extension,
      Item.fact "Items" (itemNames info.target),
      Item.fact "Generator Class" info.target.generatorName,
      Item.fact "Module" info.target.moduleName] ++
      if info.aliases.isEmpty then []
      else [Item.fact "Aliases" (", ".intercalate info.aliases)]))

def tellAbout (r : Registry) (name : String) : Shown :=
  match r.info name with
  | .ok info => ⟨[.blank, infoPanel info], 0⟩
  | .error _ =>
    ⟨[.line ("[red]✗ Target '" ++ name ++ "' is not supported[/red]"),
      .line "[dim]Use typegen list-targets to see available options[/dim]"], 1⟩

def listTargets (r : Registry) : Option String → Shown
  | none => listAll r
  | some name => if name = "" then listAll r else tellAbout r name

/-- The directory of a name. -/
def rootOf (name : String) : Acting Path := fun d =>
  let path := Path.ofText name
  ⟨[], d,
    match d.tree.isDirectory? path with
    | .error e => .error (.file e)
    | .ok true => .ok path
    | .ok false => .error (.command (.notDirectory path))⟩

def saveCustom (s : Surroundings) (o : SaveOptions) : Acting Shown := do
  let root ← rootOf o.root
  let config ← loadConfig s o.config []
  let saved ← changing .region id (Region.saveAll config root)
  return ⟨saved.map (fun p => .bullet p.text) ++
    [.success ("Saved custom parts of " ++ toString saved.length ++ " file(s)")], 0⟩

def clean (s : Surroundings) (o : CleanOptions) : Acting Shown := do
  let root ← rootOf o.root
  let config ← loadConfig s o.config []
  let deleted ← changing .file (fun _ => []) (Output.deleteGenerated config root)
  let removed ← if o.keepDirectories then pure []
    else changing .file (fun _ => []) (Output.cleanDirectories root)
  return ⟨[.success ("Deleted " ++ toString deleted.length ++ " generated file(s), removed " ++
    toString removed.length ++ " empty folder(s)")], 0⟩

end Scaffold.Command

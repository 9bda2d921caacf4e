import AbsoluteImports.Config.Hcl
import AbsoluteImports.Config.Yaml
import AbsoluteImports.FileTree.Access
import AbsoluteImports.Text.LowerCase

/-!
# Reading a configuration file

The ending of the file's name decides how its content is read. The settings are checked
before they are given out.
-/

namespace AbsoluteImports.Config

/-- Why a configuration file could not be used. -/
inductive Error where
  | reading (f : FileTree.Failure)
  | extension (ending : Text)
  | json
  | yaml
  | hclSyntax
  | hclValue
  | invalid (e : Invalid)
  deriving DecidableEq, Repr

def Error.message : Error → String
  | reading f => "reading config file: " ++ f.message
  | extension e => "unsupported file extension " ++ Text.quoted e
  | json => "parsing JSON"
  | yaml => "parsing YAML"
  | hclSyntax => "parsing HCL"
  | hclValue => "decoding HCL"
  | invalid e => "validating config: " ++ e.message

def ofContent (env : Environment) (ending : Text) (content : Bytes) : Except Error Config :=
  let found := fun (e : Error) (c : Option Config) => match c with
    | some c => Except.ok c
    | none => .error e
  if ending = ".json".toList then found .json (readJson? content)
  else if ending = ".yaml".toList || ending = ".yml".toList then found .yaml (readYaml? content)
  else if ending = ".hcl".toList then
    match hclBody? content with
    | some b => found .hclValue (ofHcl? env b)
    | none => .error .hclSyntax
  else .error (.extension ending)

def loadingEvent (path : Text) : Event :=
  ⟨.debug, [("path", .text path)], "loading configuration".toList⟩

def load (t : FileTree) (cwd : Location) (env : Environment) (path : Text) :
    Except Error Config × List Event :=
  match t.readFile cwd path with
  | .error f => (.error (.reading f), [loadingEvent path])
  | .ok content =>
    match ofContent env (Text.toLower (Path.extension path)) content with
    | .error e => (.error e, [loadingEvent path])
    | .ok c =>
      match validate { c with location := path } with
      | (.error e, _) => (.error (.invalid e), [loadingEvent path])
      | (.ok (), checked) => (.ok checked, [loadingEvent path, validatedEvent checked])

end AbsoluteImports.Config

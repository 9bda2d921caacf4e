import AbsoluteImports.Text.JsonQuoted

/-!
# Build information

From what the program was built, as its `version` command shows it.
-/

namespace AbsoluteImports

/-- What the program was built from. -/
structure Build where
  version : Text
  /-- The compiler. -/
  compiler : Text
  platform : Text
  /-- The revision of the sources, empty when it is not known. -/
  revision : Text
  /-- The sources were changed since that revision. -/
  modified : Bool
  deriving DecidableEq, Repr

namespace Build

def shownRevision (b : Build) : Text :=
  (if b.revision.isEmpty then "unknown".toList else b.revision) ++
    (if b.modified then " (modified)".toList else [])

def text (b : Build) : Text :=
  "pyimports ".toList ++ b.version ++ "\nrevision: ".toList ++ b.shownRevision ++
    "\ngo:       ".toList ++ b.compiler ++ "\nplatform: ".toList ++ b.platform ++ ['\n']

def member (name : String) (value : Text) : Text :=
  "  ".toList ++ Text.jsonQuoted name.toList ++ ": ".toList ++ value

/-- The build information as JSON. A revision that is not known is left out. -/
def json (b : Build) : Text :=
  let members :=
    [member "version" (Text.jsonQuoted b.version), member "go_version" (Text.jsonQuoted b.compiler),
      member "platform" (Text.jsonQuoted b.platform)] ++
    (if b.revision.isEmpty then [] else [member "revision" (Text.jsonQuoted b.revision)]) ++
    [member "modified" (if b.modified then "true".toList else "false".toList)]
  "\x7b\n".toList ++ Text.joinText ",\n".toList members ++ "\n\x7d\n".toList

end Build

end AbsoluteImports

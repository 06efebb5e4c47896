/-
  DepGraph — the languages whose files can be scanned.

  * `Language`: the languages; `Language.all` in the order in which they are
    listed.
  * `Language.handles`: a file belongs to a language, by its suffix or its name.
  * `Language.suffixes`: what may be left out at the end of a reference.
  * `Language.separator`: what separates the parts of a module name.
  * `Language.scan`: the report of a file.
  * `Language.scanLine?`: the report of a line, for the languages whose lines
    stand for themselves.
-/
import DepGraph.Language.Include
import DepGraph.Language.Module
import DepGraph.Language.Package
import DepGraph.Language.Python
import DepGraph.Language.Raw
import DepGraph.Language.Script

namespace DepGraph

/-- The languages whose files can be scanned. -/
inductive Language
  | typescript
  | javascript
  | java
  | c
  | cpp
  | python
  | csharp
  | npm
  | raw
  deriving DecidableEq, Repr

namespace Language

/-- All languages, in the order in which they are listed. -/
def all : List Language :=
  [typescript, javascript, java, c, cpp, python, csharp, npm, raw]

/-- The name of a language. -/
def name : Language → String
  | typescript => "typescript"
  | javascript => "javascript"
  | java => "java"
  | c => "c"
  | cpp => "cpp"
  | python => "python"
  | csharp => "csharp"
  | npm => "npm"
  | raw => "raw"

/-- The language of a name. -/
def ofName? (s : String) : Option Language := all.find? (·.name == s)

/-- What the scanner of a language reads. -/
def description : Language → String
  | typescript => "TypeScript import/export/require statements"
  | javascript => "JavaScript (and Vue single-file component) import/require statements"
  | java => "Java package/import statements; modules are fully qualified class names"
  | c => "C #include directives"
  | cpp => "C++ / Objective-C #include directives"
  | python => "Python import / from-import / importlib.import_module"
  | csharp => "C# namespace/using statements; modules are namespaces"
  | npm =>
    "npm projects: package.json, or yarn.lock / package-lock.json with the lock_file option; " ++
      "dev=true reads devDependencies"
  | raw => "raw dependency data: JSON objects like \x7b\"a\": [\"b\", \"c\"]\x7d"

/-- The suffixes of the files of a language. -/
def extensions : Language → List String
  | typescript => [".ts", ".tsx"]
  | javascript => [".js", ".jsx", ".cjs", ".mjs", ".vue"]
  | java => [".java"]
  | c => [".c", ".h"]
  | cpp => [".c", ".cpp", ".h", ".hpp", ".cxx", ".cc", ".hh", ".m"]
  | python => [".py"]
  | csharp => [".cs"]
  | npm => []
  | raw => [".json"]

/-- The names of the files of a language, where the name counts. -/
def fileNames : Language → List String
  | npm => ["package.json"]
  | _ => []

/-- What separates the parts of a module name. -/
def separator : Language → String
  | java | csharp => "."
  | _ => "/"

/-- What may be left out at the end of a reference, in the order in which it is
  tried. -/
def suffixes : Language → List String
  | typescript => extensions .typescript ++ (extensions .typescript).map ("/index" ++ ·)
  | javascript => extensions .javascript ++ (extensions .javascript).map ("/index" ++ ·)
  | python => [".py", "/__init__.py"]
  | _ => []

/-- A file belongs to a language. -/
def handles (l : Language) (file : String) : Bool :=
  let path := Path.ofText file
  if l.fileNames.isEmpty then l.extensions.contains path.suffix else l.fileNames.contains path.name

/-- The report of a file. -/
def scan (l : Language) (s : Source) : Except FileError Report :=
  match l with
  | typescript | javascript => s.text.map scanScript
  | java => s.text.map (scanPackages s.file)
  | csharp => s.text.map (scanNamespaces s.file)
  | c | cpp => s.text.map scanIncludes
  | python => s.text.map scanPython
  | raw => s.text.map scanRaw
  | npm => scanPackage s

/-- The report of a single line. -/
def scanLine? (l : Language) (line : List Char) : Option Report :=
  match l with
  | c | cpp => some (scanIncludeLine line)
  | python => some (scanPythonLine line)
  | _ => none

end Language

end DepGraph

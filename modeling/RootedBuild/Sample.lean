import RootedBuild.Engine
import RootedBuild.Text.Blank
import RootedBuild.Text.Search
import RootedBuild.Text.Utf8
import RootedBuild.Text.Word

/-!
A sample analyzer, line by line and by simple signs: a number declared as a text, a test function
called without the types of a test runner, an import that finds no file, a variable that is never
named again, and more opening than closing parentheses. It stands in for a type checker and does not
claim to be one. Columns count bytes, but for a missing parenthesis they count characters.
-/
namespace RootedBuild
open Text (trimStart trimEnd trim splitOnce dropPrefix? byteLength)

namespace Sample

/-- Something found in a line: its column and what the report names. -/
structure Finding where
  column : Nat
  named : List Char

def indentOf (line : List Char) : Nat := byteLength line - byteLength (trimStart line)

def dropSemicolons (cs : List Char) : List Char := (cs.reverse.dropWhile (· == ';')).reverse

/-- A constant declared as a text whose value is a number. -/
def numberAsText? (line : List Char) : Option Finding := do
  let declaration ← dropPrefix? "const ".toList (trimStart line)
  let (_, init) ← splitOnce ": string = ".toList declaration
  let value := trim (dropSemicolons (trimEnd init))
  if value.isEmpty || !value.all Char.isDigit then none
  else some ⟨indentOf line + "const ".length + 1, value⟩

def joinsWord (c : Char) : Bool := Text.isAlphanumeric c || c == '_' || c == '$' || c == '.'

/-- The first byte of a call that does not continue a longer name, after `before` has been read. -/
def callFrom (call : List Char) (before : Option Char) (column : Nat) : List Char → Option Nat
  | [] => none
  | c :: cs =>
    if call.isPrefixOf (c :: cs) && !(before.any joinsWord) then some column
    else callFrom call (some c) (column + c.utf8Size) cs

def call? (name : String) (line : List Char) : Option Finding :=
  (callFrom (name.toList ++ ['(']) none 1 line).map fun column => ⟨column, name.toList⟩

/-- What an import at the start of a line names, at its opening quote. -/
def import? (line : List Char) : Option Finding := do
  if !"import ".toList.isPrefixOf (trimStart line) then none
  let (before, quoted) ← splitOnce " from ".toList line
  match quoted with
  | [] => none
  | quote :: rest =>
    if quote ≠ '\'' && quote ≠ '"' then none
    else
      let (named, _) ← splitOnce [quote] rest
      some ⟨byteLength before + " from ".length + 1, named⟩

def inName (c : Char) : Bool := Text.isAlphanumeric c || c == '_'

/-- A variable whose name stands nowhere else in the source. -/
def unusedName? (source line : List Char) : Option Finding := do
  let declaration ← dropPrefix? "let ".toList (trimStart line)
  let named := declaration.takeWhile inName
  if named.isEmpty || 1 < Text.count named source then none
  else some ⟨indentOf line + "let ".length + 1, named⟩

/-! ### Messages -/

def typeMismatch (f : Finding) : Nat × String :=
  (2322, "Type '" ++ String.ofList f.named ++ "' is not assignable to type 'string'.")

def unknownRunner (f : Finding) : Nat × String :=
  (2593, "Cannot find name '" ++ String.ofList f.named ++
    "'. Do you need to install type definitions for a test runner? " ++
    "Try `npm i --save-dev @types/jest` or `npm i --save-dev @types/mocha`.")

def unknownModule (f : Finding) : Nat × String :=
  (2307, "Cannot find module '" ++ String.ofList f.named ++
    "' or its corresponding type declarations.")

def neverRead (f : Finding) : Nat × String :=
  (6133, "'" ++ String.ofList f.named ++ "' is declared but its value is never read.")

/-! ### A file -/

/-- The analyzer of one root. -/
structure Analyzer where
  root : Path
  options : Options

namespace Analyzer

def hasRunnerTypes (a : Analyzer) : Bool :=
  (a.options.types?.getD []).any fun s => s == "mocha" || s == "jest"

/-- The directory an import is meant from. -/
def importBase? (a : Analyzer) (file : Path) (named : List Char) : Option Path :=
  if named.head? == some '.' then file.parent? else a.options.pathsBase?

def candidates (target : Path) : List Path :=
  [".ts", ".tsx", ".d.ts"].map target.append ++ [target.child "index.ts"]

def resolves (a : Analyzer) (t : FileTree) (file : Path) (named : List Char) : Bool :=
  match a.importBase? file named with
  | some base => (candidates (base.child (String.ofList named))).any t.isFile
  | none => false

def reportAt (file : Path) (line : Nat) (f : Finding) (text : Nat × String) : Diagnostic :=
  ⟨some ⟨file, line, f.column⟩, text.1, text.2, .semantic⟩

def keep (condition : Bool) (found : Option Finding) : Option Finding :=
  found.filter fun _ => condition

/-- What is found in one line, in the order of the checks. -/
def lineReports (a : Analyzer) (t : FileTree) (file : Path) (source : List Char) (number : Nat)
    (line : List Char) : List Diagnostic :=
  let report (found : Option Finding) (text : Finding → Nat × String) : Option Diagnostic :=
    found.map fun f => reportAt file number f (text f)
  let runner (name : String) := report (keep (!a.hasRunnerTypes) (call? name line)) unknownRunner
  let missing := (import? line).filter fun f => !a.resolves t file f.named
  let unused := keep (a.options.bool? "noUnusedLocals" == some true) (unusedName? source line)
  [report (numberAsText? line) typeMismatch, runner "describe", runner "it",
    report missing unknownModule, report unused neverRead].filterMap id

def reportsFrom (a : Analyzer) (t : FileTree) (file : Path) (source : List Char) (number : Nat) :
    List (List Char) → List Diagnostic
  | [] => []
  | line :: rest =>
    a.lineReports t file source number line ++ a.reportsFrom t file source (number + 1) rest

/-- A missing parenthesis is reported at the end of the file. -/
def unclosed (file : Path) (source : List Char) : List Diagnostic :=
  if source.count '(' ≤ source.count ')' then []
  else
    let lastLine := (Text.splitBreaks source).getLast?.getD []
    [⟨some ⟨file, source.count '\n' + 1, lastLine.length + 1⟩, 1005, "')' expected.", .syntactic⟩]

def diagnostics (a : Analyzer) (t : FileTree) (file : Path) (source : List Char) :
    List Diagnostic :=
  unclosed file source ++ a.reportsFrom t file source 1 (Text.lines source)

/-- Type annotations of the two simplest types are taken out. -/
def transpile (source : List Char) : List Char :=
  Text.remove ": number".toList (Text.remove ": string".toList source)

def analyze (a : Analyzer) (t : FileTree) (file : Path) (source : String) : Analysis :=
  ⟨String.ofList (transpile source.toList), a.diagnostics t file source.toList⟩

end Analyzer

/-! ### The engine -/

/-- What the analyzers of all roots share: counts, the files seen by the root they belong to, and
the names of files that are made to fail. -/
structure Memory where
  created : Nat := 0
  analyses : Nat := 0
  seen : List (Path × Path) := []
  failing : List String := []

namespace Memory

def refuse (m : Memory) (name : String) : Memory := { m with failing := name :: m.failing }

/-- The files seen by the root of a directory, in the order they were seen. -/
def seenUnder (m : Memory) (dir : Path) : List Path :=
  (m.seen.filter fun s => s.1.same dir).map Prod.snd

end Memory

def crashReason : String := "Debug Failure. False expression."

def engine : Engine Memory Analyzer where
  create _ facts options m :=
    ({ m with created := m.created + 1 }, .ok ⟨facts.directory, options⟩)
  analyze t a file source m :=
    let m := { m with analyses := m.analyses + 1, seen := m.seen ++ [(a.root, file)] }
    if m.failing.contains (file.fileName?.getD "") then (m, .failed ⟨file, crashReason⟩)
    else (m, .ok (a.analyze t file source))

end Sample

end RootedBuild

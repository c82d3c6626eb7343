import RootedBuild.Json.Fields
import RootedBuild.Path.Relative

/-!
What an analyzer reports about a file. A diagnostic is shown as one text that depends on the build
context only through the path at its start; whether it counts as an error or a warning is decided
for a whole build and changes no text.
-/
namespace RootedBuild

/-- The phase of analysis that a diagnostic comes from. -/
inductive DiagnosticKind where
  | syntactic
  | semantic
  | options
  deriving DecidableEq, Repr

def DiagnosticKind.name : DiagnosticKind → String
  | .syntactic => "syntactic"
  | .semantic => "semantic"
  | .options => "options"

def DiagnosticKind.ofName? (s : String) : Option DiagnosticKind :=
  [DiagnosticKind.syntactic, .semantic, .options].find? fun k => k.name = s

/-- A place in a file, line and column counted from one. -/
structure Location where
  file : Path
  line : Nat
  column : Nat
  deriving DecidableEq, Repr

structure Diagnostic where
  location : Option Location
  code : Nat
  message : String
  kind : DiagnosticKind
  deriving DecidableEq, Repr

namespace Diagnostic

/-- All of the text but the path. -/
def afterPath (d : Diagnostic) : String :=
  let label := "error TS" ++ toString d.code ++ ": " ++ d.message
  match d.location with
  | some l => "(" ++ toString l.line ++ "," ++ toString l.column ++ "): " ++ label
  | none => label

def shownPath (context : Path) (d : Diagnostic) : String :=
  match d.location with
  | some l => context.relativeTo l.file
  | none => ""

def render (context : Path) (d : Diagnostic) : String := d.shownPath context ++ d.afterPath

/-! ### Reading -/

open Json

/-- A kind is written as its name, or as an object with its name as the only key and null below. -/
def kind? : Written → Option DiagnosticKind
  | .text (.ok s) => DiagnosticKind.ofName? s
  | .record [(.ok s, .null)] => DiagnosticKind.ofName? s
  | _ => none

def path? (w : Written) : Option Path := w.text?.map Path.mk

def location? (w : Written) : Option Location := do
  let f ← Fields.ofWritten? ["file", "line", "column"] w
  let file ← f.required 0 path?
  let line ← f.required 1 Written.nat32?
  let column ← f.required 2 Written.nat32?
  return ⟨file, line, column⟩

def ofWritten? (w : Written) : Option Diagnostic := do
  let f ← Fields.ofWritten? ["location", "code", "message", "kind"] w
  let location ← f.optional 0 location?
  let code ← f.required 1 Written.nat32?
  let message ← f.required 2 Written.text?
  let kind ← f.required 3 kind?
  return ⟨location, code, message, kind⟩

end Diagnostic

end RootedBuild

import RootedBuild.Diagnostic.Nested
import RootedBuild.Engine
import RootedBuild.Json.Printer

/-!
The messages between a build and a language service: one JSON object a line. A build introduces
itself once and then sends one request a file; the service answers each with the code and
diagnostics of the file, or with an error. Positions on the wire count from zero.
-/
namespace RootedBuild.Service
open Json

inductive Request where
  | init (root : RootFacts) (options : Options)
  | analyze (file : Path) (source : String)

namespace Request

def value : Request → Value
  | .init root options =>
    .record
      [("kind", .text "init"), ("rootDir", .text root.directory.text),
        ("configPath", (root.descriptor.map fun p => Value.text p.text).getD .null),
        ("compilerOptions", .record options.members)]
  | .analyze file source =>
    .record [("kind", .text "analyze"), ("fileName", .text file.text), ("text", .text source)]

/-- A request is written on one line, whatever its texts hold. -/
def line (r : Request) : String := r.value.print ++ "\n"

end Request

/-- A diagnostic as a service reports it, less the message's structure. -/
structure ReportedDiagnostic where
  file : Option Path
  line : Nat
  character : Nat
  code : Nat
  kind : DiagnosticKind
  message : String

namespace ReportedDiagnostic

/-- A message is a text, or a text with messages below it. -/
def message? : Written → Option String
  | .text s => s.toOption
  | w => (NestedMessage.ofWritten? w).map NestedMessage.flatten

def ofWritten? (w : Written) : Option ReportedDiagnostic := do
  let f ← Fields.ofWritten? ["fileName", "line", "character", "code", "category", "messageText"] w
  let file ← f.withDefault 0 none (Fields.nullable Diagnostic.path?)
  let line ← f.withDefault 1 0 Written.nat32?
  let character ← f.withDefault 2 0 Written.nat32?
  let code ← f.required 3 Written.nat32?
  let kind ← f.withDefault 4 .semantic Diagnostic.kind?
  let message ← f.required 5 message?
  return ⟨file, line, character, code, kind, message⟩

/-- The diagnostic of a service that works in `root`, with positions counted from one. -/
def diagnostic (root : Path) (w : ReportedDiagnostic) : Diagnostic :=
  ⟨w.file.map fun file => ⟨root.within file, w.line + 1, w.character + 1⟩,
    w.code, w.message, w.kind⟩

end ReportedDiagnostic

inductive Response where
  | failure (error : String)
  | success (code : String) (diagnostics : List ReportedDiagnostic)

namespace Response

def failure? (w : Written) : Option Response := do
  let f ← Fields.ofWritten? ["error"] w
  let error ← f.required 0 Written.text?
  return .failure error

def diagnostics? (w : Written) : Option (List ReportedDiagnostic) :=
  w.list?.bind fun items => items.mapM ReportedDiagnostic.ofWritten?

def success? (w : Written) : Option Response := do
  let f ← Fields.ofWritten? ["outputText", "diagnostics"] w
  let code ← f.required 0 Written.text?
  let diagnostics ← f.withDefault 1 [] diagnostics?
  return .success code diagnostics

/-- An object with an error is a failure, whatever else it holds. -/
def ofWritten? (w : Written) : Option Response :=
  match w with
  | .record _ => (failure? w).or (success? w)
  | _ => none

def noVariant : String := (Complaint.noVariant "Response").text

/-- Reads a line, its line break included. Whether something follows the value is asked last. -/
def ofTokens (ts : Tokens) : Except String Response :=
  match readValue (.strict deepest) ts with
  | .error f => .error f.message
  | .ok (w, rest) =>
    match ofWritten? w with
    | none => .error noVariant
    | some r => ((expectEnd rest).mapError Fault.message).map fun _ => r

def notUtf8 : String := "stream did not contain valid UTF-8"

def ofLine (bytes : List UInt8) : Except String Response :=
  match Text.decodeUtf8 bytes with
  | .ok line => ofTokens (scan line)
  | .error _ => .error notUtf8

/-- What the response means for a file of a root. -/
def outcome (root file : Path) : Except String Response → Outcome AnalysisFault Analysis
  | .ok (.success code diagnostics) => .ok ⟨code, diagnostics.map (·.diagnostic root)⟩
  | .ok (.failure error) => .failed ⟨file, error⟩
  | .error reason => .failed ⟨file, reason⟩

end Response

end RootedBuild.Service

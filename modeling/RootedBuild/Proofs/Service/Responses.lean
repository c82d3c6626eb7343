import RootedBuild.Proofs.Json.Accepted
import RootedBuild.Proofs.Json.Fields
import RootedBuild.Proofs.Text.Utf8
import RootedBuild.Service.Wire

/-!
What a line of a service holds. A line is spoiled if no result can be had from it: it has no text or
no value, its value is no response or has one diagnostic that cannot be read, or it tells of an
error. Exactly the spoiled lines fail the file they answer.
-/
namespace RootedBuild.Service.Response
open Json

theorem ofLine_eq_ok_iff {line : List UInt8} {r : Response} :
    ofLine line = .ok r ↔ ∃ text w, Text.decodeUtf8 line = .ok text ∧
      readWhole (.strict deepest) text = .ok w ∧ ofWritten? w = some r := by
  unfold ofLine
  cases decoded : Text.decodeUtf8 line with
  | error f => simp
  | ok text =>
      simp only [Except.ok.injEq, exists_and_left, exists_eq_left', readWhole_eq_ok_iff]
      unfold ofTokens
      cases readValue (.strict deepest) (scan text) with
      | error f => simp
      | ok found =>
          obtain ⟨w, rest⟩ := found
          cases shape : ofWritten? w with
          | none => simp [shape]
          | some s => cases rest <;> simp [shape, expectEnd, Except.mapError, Except.map]

/-- A line from which no result can be had. -/
inductive Spoiled (line : List UInt8) : Prop where
  | blank (layout : ∀ b ∈ line, b = 32 ∨ b = 9 ∨ b = 10 ∨ b = 13)
  | notText {f : Text.Utf8Fault} (decoded : Text.decodeUtf8 line = .error f)
  | notJson {text : String} (decoded : Text.decodeUtf8 line = .ok text)
      (other : ¬IsDocument text)
  | refused {text : String} {f : Fault} (decoded : Text.decodeUtf8 line = .ok text)
      (read : readWhole (.strict deepest) text = .error f)
  | wrongShape {text : String} {w : Written} (decoded : Text.decodeUtf8 line = .ok text)
      (read : readWhole (.strict deepest) text = .ok w) (shape : ofWritten? w = none)
  | badDiagnostic {text : String} {members : List WrittenMember} {items : List Written}
      {item : Written} (decoded : Text.decodeUtf8 line = .ok text)
      (read : readWhole (.strict deepest) text = .ok (.record members))
      (holds : (.ok "diagnostics", .list items) ∈ members) (member : item ∈ items)
      (bad : ReportedDiagnostic.ofWritten? item = none)
  | failure {text : String} {w : Written} {e : String} (decoded : Text.decodeUtf8 line = .ok text)
      (read : readWhole (.strict deepest) text = .ok w) (told : ofWritten? w = some (.failure e))

theorem outcome_of_not_success (root file : Path) {r : Except String Response}
    (other : ∀ code ds, r ≠ .ok (.success code ds)) :
    ∃ reason, outcome root file r = .failed ⟨file, reason⟩ := by
  cases r with
  | error reason => exact ⟨reason, rfl⟩
  | ok r =>
      cases r with
      | failure e => exact ⟨e, rfl⟩
      | success code ds => exact absurd rfl (other code ds)

theorem notJson_of_blank {line : List UInt8}
    (layout : ∀ b ∈ line, b = 32 ∨ b = 9 ∨ b = 10 ∨ b = 13) :
    ∃ text, Text.decodeUtf8 line = .ok text ∧ ¬IsDocument text := by
  have small : ∀ b ∈ line, b.toNat < 0x80 := by
    intro b member
    rcases layout b member with rfl | rfl | rfl | rfl <;> decide
  refine ⟨_, Text.decodeUtf8_ascii small, not_isDocument_of_layout ?_⟩
  rw [String.toList_ofList]
  intro c member
  obtain ⟨b, inside, rfl⟩ := List.mem_map.mp member
  rcases layout b inside with rfl | rfl | rfl | rfl <;> rfl

theorem mapM_eq_none {f : α → Option γ} {xs : List α} {x : α} (member : x ∈ xs)
    (fails : f x = none) : xs.mapM f = none := by
  induction xs with
  | nil => cases member
  | cons y ys ih =>
      rw [List.mapM_cons]
      rcases List.mem_cons.mp member with rfl | later
      · rw [fails]
        rfl
      · rw [ih later]
        cases f y <;> rfl

/-- One diagnostic that cannot be read spoils the whole response. -/
theorem ofWritten?_of_badDiagnostic {members : List WrittenMember} {items : List Written}
    {item : Written} (holds : (.ok "diagnostics", .list items) ∈ members) (member : item ∈ items)
    (bad : ReportedDiagnostic.ofWritten? item = none) (code : String)
    (ds : List ReportedDiagnostic) : ofWritten? (.record members) ≠ some (.success code ds) := by
  have unread : diagnostics? (.list items) = none := by
    rw [diagnostics?, Written.list?, Option.bind_some]
    exact mapM_eq_none member bad
  have refused : success? (.record members) = none := by
    unfold success?
    cases fields : Fields.ofWritten? ["outputText", "diagnostics"] (.record members) with
    | none => rfl
    | some f =>
        obtain ⟨slots, put, rfl⟩ := Option.map_eq_some_iff.mp fields
        have slot : slots[1]? = some (some (.list items)) :=
          (fillSlots_holds (v := .null) put rfl (by decide) (by decide)).2 holds
        have field : Fields.withDefault ⟨false, slots⟩ 1 [] diagnostics? = none := by
          rw [Fields.withDefault, Fields.slot, slot]
          exact unread
        dsimp only [bind, Option.bind]
        rw [field]
        cases Fields.required ⟨false, slots⟩ 0 Written.text? <;> rfl
  rw [ofWritten?, refused, Option.or_none]
  unfold failure?
  cases Fields.ofWritten? ["error"] (.record members) with
  | none => simp
  | some f =>
      dsimp only [bind, Option.bind]
      cases f.required 0 Written.text? <;> simp

/-- A line is spoiled if it is no success, and then its call fails and names its file. -/
theorem spoiled_iff (root file : Path) {line : List UInt8} :
    Spoiled line ↔ ∃ reason, outcome root file (ofLine line) = .failed ⟨file, reason⟩ := by
  constructor
  · intro spoiled
    apply outcome_of_not_success
    intro code ds success
    obtain ⟨text, w, decoded, read, told⟩ := ofLine_eq_ok_iff.mp success
    have json := isDocument_of_readWhole read
    cases spoiled with
    | blank layout =>
        obtain ⟨text', decoded', other⟩ := notJson_of_blank layout
        cases decoded.symm.trans decoded'
        exact other json
    | notText decoded' => cases decoded.symm.trans decoded'
    | notJson decoded' other =>
        cases decoded.symm.trans decoded'
        exact other json
    | refused decoded' read' =>
        cases decoded.symm.trans decoded'
        cases read.symm.trans read'
    | wrongShape decoded' read' shape =>
        cases decoded.symm.trans decoded'
        cases read.symm.trans read'
        cases shape.symm.trans told
    | badDiagnostic decoded' read' holds member bad =>
        cases decoded.symm.trans decoded'
        cases read.symm.trans read'
        exact ofWritten?_of_badDiagnostic holds member bad code ds told
    | failure decoded' read' told' =>
        cases decoded.symm.trans decoded'
        cases read.symm.trans read'
        cases told.symm.trans told'
  · rintro ⟨reason, failed⟩
    cases decoded : Text.decodeUtf8 line with
    | error f => exact .notText decoded
    | ok text =>
        cases read : readWhole (.strict deepest) text with
        | error f => exact .refused decoded read
        | ok w =>
            cases told : ofWritten? w with
            | none => exact .wrongShape decoded read told
            | some r =>
                cases r with
                | failure e => exact .failure decoded read told
                | success code ds =>
                    rw [ofLine_eq_ok_iff.mpr ⟨text, w, decoded, read, told⟩] at failed
                    cases failed

end RootedBuild.Service.Response

import RootedBuild.Proofs.Path.Inside

/-!
One diagnostic under several build contexts. The path at its start is the only part of its text that
a context has a say in, and a context below another one takes just the way between the two away from
that path. What a context does to a path outside of it is said with relative paths, not here.
-/
namespace RootedBuild

/-- Line and column, as they stand behind a path. -/
def Location.mark (l : Location) : String :=
  "(" ++ toString l.line ++ "," ++ toString l.column ++ ")"

namespace Diagnostic

/-- What stands behind the path and its mark, or alone. -/
def labelled (d : Diagnostic) : String := "error TS" ++ toString d.code ++ ": " ++ d.message

theorem render_of_none {d : Diagnostic} (nowhere : d.location = none) (context : Path) :
    d.render context = d.labelled := by
  simp [render, shownPath, afterPath, nowhere, labelled]

theorem render_of_some {d : Diagnostic} {l : Location} (placed : d.location = some l)
    (context : Path) :
    d.render context = context.relativeTo l.file ++ l.mark ++ (": " ++ d.labelled) := by
  have closing : "): " = ")" ++ ": " := by decide
  simp only [render, shownPath, afterPath, placed, labelled, Location.mark, closing,
    String.append_assoc]

/-- A build context changes nothing but the path at the start of a diagnostic. An outer context puts
the way to the inner one in front of it, and behind the path all texts are the same. -/
theorem render_elsewhere (d : Diagnostic) :
    (∀ l, d.location = some l →
      (l.file.isAbsolute = true → ∀ outer inner : Path,
        outer.isAbsolute = true → inner.isAbsolute = true →
        outer.Below inner → inner.Below l.file →
          d.render outer = outer.relativeTo inner ++ "/" ++ d.render inner) ∧
      ∃ rest, ∀ context : Path,
        d.render context = context.relativeTo l.file ++ l.mark ++ rest) ∧
    (d.location = none → ∀ context context' : Path, d.render context = d.render context') := by
  refine ⟨fun l placed => ⟨?_, _, render_of_some placed⟩, fun nowhere context context' => ?_⟩
  · intro file outer inner rooted rooted' first second
    have way : outer.relativeTo l.file =
        outer.relativeTo inner ++ "/" ++ inner.relativeTo l.file :=
      Path.relativeTo_below rooted rooted' file first second
    rw [render_of_some placed, render_of_some placed, way]
    simp only [String.append_assoc]
  · rw [render_of_none nowhere, render_of_none nowhere]

/-- A diagnostic in a file that is spelled with a detour. -/
def typeError : Diagnostic :=
  ⟨some ⟨⟨"/fixtures/errors/./type.ts"⟩, 1, 7⟩, 2322, "Not assignable.", .semantic⟩

/-- The same from two directories above its file, of which the nearer one is not tidy either. -/
theorem render_elsewhere_nested :
    typeError.render ⟨"/fixtures/"⟩ =
      "errors" ++ "/" ++ "type.ts(1,7): error TS2322: Not assignable." ∧
    (⟨"/fixtures/"⟩ : Path).Below ⟨"/fixtures/x/../errors"⟩ ∧
    (⟨"/fixtures/x/../errors"⟩ : Path).Below ⟨"/fixtures/errors/./type.ts"⟩ := by
  have first : (⟨"/fixtures/"⟩ : Path).Below ⟨"/fixtures/x/../errors"⟩ :=
    ⟨by decide +kernel, by decide +kernel⟩
  have second : (⟨"/fixtures/x/../errors"⟩ : Path).Below ⟨"/fixtures/errors/./type.ts"⟩ :=
    ⟨by decide +kernel, by decide +kernel⟩
  obtain ⟨located, -⟩ := render_elsewhere typeError
  obtain ⟨nested, -⟩ := located _ rfl
  have shown := nested (by decide) _ _ (by decide) (by decide) first second
  have way : (⟨"/fixtures/"⟩ : Path).relativeTo ⟨"/fixtures/x/../errors"⟩ = "errors" := by
    decide +kernel
  have near : typeError.render ⟨"/fixtures/x/../errors"⟩ =
      "type.ts(1,7): error TS2322: Not assignable." := by
    decide +kernel
  rw [way, near] at shown
  exact ⟨shown, first, second⟩

end Diagnostic

end RootedBuild

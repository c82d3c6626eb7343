import Mathlib.Data.List.Basic
import Mathlib.Data.List.Chain
import RootedBuild.Descriptor.Layout

/-!
The two passes over descriptor text agree on what is inside a text literal. Each pass is told again
as a machine that reads one character at a time and may look at the next one; the stage in which it
reads a character says whether that one is inside a literal, outside, or part of a comment. What the
comment pass leaves is read by the comma pass in the same way as it was read before, so both passes
together do what one pass over the text would do. No text is asked to be well formed.
-/
namespace RootedBuild.Descriptor

/-! ### Stages and roles -/

/-- Where a reader stands towards text literals; `escaped` is the character behind a backslash. The
quote that opens a literal is read outside of it, and the one that closes it inside. -/
inductive Quoting where
  | outside
  | inside
  | escaped
  deriving DecidableEq

def Quoting.next : Quoting → Char → Quoting
  | .outside, c => if c = '"' then .inside else .outside
  | .inside, c => if c = '\\' then .escaped else if c = '"' then .outside else .inside
  | .escaped, _ => .inside

/-- The stage in which the comment pass reads a character: in what is no comment, or in a comment,
where `opening` is for the star of its opening mark and `closing` for the slash of its closing
one. -/
inductive Stage where
  | code (q : Quoting)
  | line
  | opening
  | block
  | closing
  deriving DecidableEq

/-- What a character is to the comment pass. A comment starts with the slash of its opening mark.
The line break behind a line comment is no part of it. A block comment ends with the text if it has
no closing mark. -/
inductive Role where
  | outside
  | inside
  | line
  | block
  | blockEnd
  deriving DecidableEq

/-- No part of a comment. -/
def Role.isCode : Role → Bool
  | .outside | .inside => true
  | _ => false

namespace Stage

def quoting : Stage → Quoting
  | .code q => q
  | _ => .outside

/-- The stage for the character behind `c`, which is `ahead` if there is one. -/
def next (s : Stage) (c : Char) (ahead : Option Char) : Stage :=
  match s with
  | .code q =>
    if q = .outside ∧ c = '/' ∧ ahead = some '/' then .line
    else if q = .outside ∧ c = '/' ∧ ahead = some '*' then .opening
    else .code (q.next c)
  | .line => if c = '\n' then .code .outside else .line
  | .opening => .block
  | .block => if c = '*' ∧ ahead = some '/' then .closing else .block
  | .closing => .code .outside

def role (s : Stage) (c : Char) (ahead : Option Char) : Role :=
  match s with
  | .code q =>
    if q = .outside ∧ c = '/' ∧ ahead = some '/' then .line
    else if q = .outside ∧ c = '/' ∧ ahead = some '*' then .block
    else if q = .outside then .outside
    else .inside
  | .line => if c = '\n' then .outside else .line
  | .opening | .block => if ahead = none then .blockEnd else .block
  | .closing => .blockEnd

end Stage

/-- The characters of a text with their roles. -/
def marks : Stage → List Char → List (Char × Role)
  | _, [] => []
  | s, c :: cs => (c, s.role c cs.head?) :: marks (s.next c cs.head?) cs

/-- What the comment pass leaves of a character: the character itself if it is no part of a comment,
nothing of a line comment, and of a block comment its line breaks and one space at its end. -/
def leaves (m : Char × Role) : List Char :=
  match m.2 with
  | .outside | .inside => [m.1]
  | .line => []
  | .block => [m.1].filter (· == '\n')
  | .blockEnd => [m.1].filter (· == '\n') ++ [' ']

/-- The same with whether the character was read inside a literal. -/
def flagged (m : Char × Role) : List (Char × Bool) := (leaves m).map (·, m.2 == .inside)

/-- The characters of a text, each with whether the comma pass reads it inside a literal. -/
def commaMarks : Quoting → List Char → List (Char × Bool)
  | _, [] => []
  | q, c :: cs => (c, q != .outside) :: commaMarks (q.next c) cs

/-- Drops the commas outside of literals before what closes a list or an object. -/
def dropMarked : List (Char × Bool) → List Char
  | [] => []
  | a :: rest =>
    if !a.2 && a.1 == ',' && closesNext (rest.map Prod.fst) then dropMarked rest
    else a.1 :: dropMarked rest

/-- Whether the next character that is neither blank nor part of a comment closes a list or an
object. -/
def closesBehind (ms : List (Char × Role)) : Bool :=
  match ms.find? fun m => m.2.isCode && !Text.isBlank m.1 with
  | some m => m.1 == '}' || m.1 == ']'
  | none => false

/-- Plain JSON in one pass over a text with its roles. -/
def inOnePass : List (Char × Role) → List Char
  | [] => []
  | m :: ms =>
    if m.2 == .outside && m.1 == ',' && closesBehind ms then inOnePass ms
    else leaves m ++ inOnePass ms

/-! ### The comma pass as a machine -/

theorem map_fst_commaMarks (q : Quoting) (cs : List Char) :
    (commaMarks q cs).map Prod.fst = cs := by
  induction cs generalizing q with
  | nil => rfl
  | cons c cs ih => rw [commaMarks, List.map_cons, ih]

def CommaState.quoting : CommaState → Quoting
  | .plain => .outside
  | .text => .inside

theorem stripCommas_eq (s : CommaState) (cs : List Char) :
    stripCommas s cs = dropMarked (commaMarks s.quoting cs) := by
  fun_induction stripCommas s cs with
  | case1 => rfl
  | case2 cs ih => simpa [commaMarks, dropMarked, CommaState.quoting, Quoting.next] using ih
  | case3 c cs quote comma ih =>
      rw [Bool.and_eq_true, decide_eq_true_eq] at comma
      simpa [commaMarks, dropMarked, CommaState.quoting, Quoting.next, quote, comma,
        map_fst_commaMarks] using ih
  | case4 c cs quote other ih =>
      rw [Bool.and_eq_true, decide_eq_true_eq] at other
      simpa [commaMarks, dropMarked, CommaState.quoting, Quoting.next, quote, other,
        map_fst_commaMarks] using ih
  | case5 => rfl
  | case6 d ds ih => simpa [commaMarks, dropMarked, CommaState.quoting, Quoting.next] using ih
  | case7 cs backslash ih =>
      simpa [commaMarks, dropMarked, CommaState.quoting, Quoting.next, backslash] using ih
  | case8 c cs backslash quote ih =>
      simpa [commaMarks, dropMarked, CommaState.quoting, Quoting.next, backslash, quote] using ih

/-! ### The comment pass as a machine -/

def CommentState.stage : CommentState → Stage
  | .plain => .code .outside
  | .text => .code .inside
  | .line => .line
  | .block => .block

/-- What is left of a text from a stage on. -/
def remains (s : Stage) (cs : List Char) : List Char :=
  -- nothing is left to be the end of the comment
  if s = .block ∧ cs = [] then [' '] else (marks s cs).flatMap leaves

theorem remains_cons (s : Stage) (c : Char) (cs : List Char)
    (other : s.next c cs.head? ≠ .block) :
    remains s (c :: cs) = leaves (c, s.role c cs.head?) ++ remains (s.next c cs.head?) cs := by
  rw [remains, remains, if_neg (by simp), if_neg fun both => other both.1, marks, List.flatMap_cons]

/-- `c` does not start a comment. -/
def Unopening (q : Quoting) (c : Char) (ahead : Option Char) : Prop :=
  q = .outside → c = '/' → ahead ≠ some '/' ∧ ahead ≠ some '*'

theorem Unopening.step {q : Quoting} {c : Char} {ahead : Option Char}
    (plain : Unopening q c ahead) :
    Stage.next (.code q) c ahead = .code (q.next c) ∧
      Stage.role (.code q) c ahead = if q = .outside then .outside else .inside := by
  have notLine : ¬(q = .outside ∧ c = '/' ∧ ahead = some '/') :=
    fun opens => (plain opens.1 opens.2.1).1 opens.2.2
  have notBlock : ¬(q = .outside ∧ c = '/' ∧ ahead = some '*') :=
    fun opens => (plain opens.1 opens.2.1).2 opens.2.2
  constructor
  · rw [Stage.next, if_neg notLine, if_neg notBlock]
  · rw [Stage.role, if_neg notLine, if_neg notBlock]

theorem leaves_of_isCode {m : Char × Role} (code : m.2.isCode = true) : leaves m = [m.1] := by
  obtain ⟨c, role⟩ := m
  cases role <;> first | rfl | cases code

theorem Unopening.leaves_eq {q : Quoting} {c : Char} {ahead : Option Char}
    (plain : Unopening q c ahead) : leaves (c, Stage.role (.code q) c ahead) = [c] := by
  refine leaves_of_isCode ?_
  rw [plain.step.2]
  split <;> rfl

theorem remains_code {q : Quoting} {c : Char} {cs : List Char} (plain : Unopening q c cs.head?) :
    remains (.code q) (c :: cs) = c :: remains (.code (q.next c)) cs := by
  have next := plain.step.1
  rw [remains_cons _ c cs (by simp [next]), next, plain.leaves_eq]
  rfl

theorem remains_line (c : Char) (cs : List Char) :
    remains .line (c :: cs) =
      if c = '\n' then c :: remains (.code .outside) cs else remains .line cs := by
  have goesOn : Stage.next .line c cs.head? ≠ .block := by
    rw [Stage.next]
    split <;> exact Stage.noConfusion
  rw [remains_cons .line c cs goesOn, Stage.next, Stage.role]
  split <;> rfl

/-- In a block comment the line breaks are left, and at the end of the text its space. -/
theorem remains_inside_block {s : Stage} {c : Char} {cs : List Char}
    (inside : s.role c cs.head? = if cs.head? = none then .blockEnd else .block)
    (stays : s.next c cs.head? = .block) :
    remains s (c :: cs) = [c].filter (· == '\n') ++ remains .block cs := by
  rw [remains, if_neg (by simp), marks, List.flatMap_cons, inside, stays]
  cases cs with
  | nil => simp [leaves, marks, remains]
  | cons d cs => simp [leaves, remains]

theorem remains_block (c : Char) (cs : List Char) (stays : ¬(c = '*' ∧ cs.head? = some '/')) :
    remains .block (c :: cs) = [c].filter (· == '\n') ++ remains .block cs :=
  remains_inside_block rfl (if_neg stays)

theorem remains_opens (cs : List Char) :
    remains (.code .outside) ('/' :: '/' :: cs) = remains .line cs ∧
      remains (.code .outside) ('/' :: '*' :: cs) = remains .block cs := by
  constructor
  · rw [remains_cons (.code .outside) '/' _ Stage.noConfusion]
    exact remains_line '/' cs
  · rw [remains_cons (.code .outside) '/' _ Stage.noConfusion]
    exact remains_inside_block (s := .opening) (c := '*') rfl rfl

theorem remains_closes (cs : List Char) :
    remains .block ('*' :: '/' :: cs) = ' ' :: remains (.code .outside) cs := by
  rw [remains_cons .block '*' _ Stage.noConfusion]
  exact remains_cons .closing '/' cs Stage.noConfusion

theorem remains_outside (c : Char) (cs : List Char)
    (plain : c = '/' → cs.head? ≠ some '/' ∧ cs.head? ≠ some '*') :
    remains (.code .outside) (c :: cs) = c :: remains (.code (Quoting.next .outside c)) cs :=
  remains_code fun _ => plain

theorem remains_literal {q : Quoting} (inside : q ≠ .outside) (c : Char) (cs : List Char) :
    remains (.code q) (c :: cs) = c :: remains (.code (q.next c)) cs :=
  remains_code fun outside => absurd outside inside

theorem stripComments_eq (s : CommentState) (cs : List Char) :
    stripComments s cs = remains s.stage cs := by
  fun_induction stripComments s cs with
  | case1 => rfl
  | case2 s other => cases s <;> first | rfl | exact absurd rfl other
  | case3 cs ih => rw [ih]; exact (remains_outside '"' cs (by simp)).symm
  | case4 => rfl
  | case5 ds _ ih => rw [ih]; exact (remains_opens ds).1.symm
  | case6 ds _ _ ih => rw [ih]; exact (remains_opens ds).2.symm
  | case7 d ds slash star _ ih =>
      rw [ih]
      exact (remains_outside '/' (d :: ds) fun _ => by simp [slash, star]).symm
  | case8 c cs quote slash ih =>
      have copied := remains_outside c cs fun same => absurd same slash
      rw [Quoting.next, if_neg quote] at copied
      rw [ih]
      exact copied.symm
  | case9 => rfl
  | case10 d ds ih =>
      have escape := remains_literal (q := .inside) nofun '\\' (d :: ds)
      rw [ih]
      exact (escape.trans (congrArg _ (remains_literal (q := .escaped) nofun d ds))).symm
  | case11 cs _ ih => rw [ih]; exact (remains_literal (q := .inside) nofun '"' cs).symm
  | case12 c cs backslash quote ih =>
      have copied := remains_literal (q := .inside) nofun c cs
      rw [Quoting.next, if_neg backslash, if_neg quote] at copied
      rw [ih]
      exact copied.symm
  | case13 cs ih => rw [ih]; exact (remains_line '\n' cs).symm
  | case14 c cs newline ih =>
      have dropped := remains_line c cs
      rw [if_neg newline] at dropped
      rw [ih]
      exact dropped.symm
  | case15 cs ih => rw [ih]; exact (remains_block '\n' cs (by simp)).symm
  | case16 => rfl
  | case17 ds _ ih => rw [ih]; exact (remains_closes ds).symm
  | case18 d ds slash _ ih =>
      rw [ih]
      exact (remains_block '*' (d :: ds) (by simpa using slash)).symm
  | case19 c cs newline star ih =>
      have dropped := remains_block c cs fun closes => star closes.1
      rw [List.filter_cons_of_neg (by simpa using newline)] at dropped
      rw [ih]
      exact dropped.symm

theorem map_fst_marks (s : Stage) (cs : List Char) : (marks s cs).map Prod.fst = cs := by
  induction cs generalizing s with
  | nil => rfl
  | cons c cs ih => rw [marks, List.map_cons, ih]

theorem stripComments_eq_leaves (cs : List Char) :
    stripComments .plain cs = (marks (.code .outside) cs).flatMap leaves := by
  rw [stripComments_eq, CommentState.stage, remains, if_neg nofun]

/-! ### Agreement -/

/-- Of a comment line breaks and spaces are left. -/
theorem mem_leaves_comment {m : Char × Role} (comment : m.2.isCode = false) :
    ∀ c ∈ leaves m, c = '\n' ∨ c = ' ' := by
  obtain ⟨c, role⟩ := m
  have breaks : ∀ d ∈ [c].filter (· == '\n'), d = '\n' ∨ d = ' ' := by
    intro d member
    exact .inl (eq_of_beq (List.mem_filter.mp member).2)
  cases role with
  | outside => cases comment
  | inside => cases comment
  | line => exact nofun
  | block => exact breaks
  | blockEnd =>
      intro d member
      rcases List.mem_append.mp member with newline | space
      · exact breaks d newline
      · exact .inr (List.mem_singleton.mp space)

theorem notMem_leaves {c : Char} (newline : c ≠ '\n') (space : c ≠ ' ') {m : Char × Role}
    (comment : m.2.isCode = false) : c ∉ leaves m :=
  fun member => (mem_leaves_comment comment c member).elim newline space

theorem flagged_comment {m : Char × Role} (comment : m.2.isCode = false) :
    flagged m = (leaves m).map (·, false) := by
  obtain ⟨c, role⟩ := m
  cases role <;> first | rfl | cases comment

/-- Outside of literals the comma pass stays outside until it reads a quote. -/
theorem commaMarks_append {cs : List Char} (unquoted : '"' ∉ cs) (rest : List Char) :
    commaMarks .outside (cs ++ rest) = cs.map (·, false) ++ commaMarks .outside rest := by
  induction cs with
  | nil => rfl
  | cons c cs ih =>
      rw [List.mem_cons, not_or] at unquoted
      rw [List.cons_append, commaMarks, Quoting.next, if_neg (Ne.symm unquoted.1), ih unquoted.2]
      rfl

theorem commaMarks_comment {m : Char × Role} (comment : m.2.isCode = false) (rest : List Char) :
    commaMarks .outside (leaves m ++ rest) = flagged m ++ commaMarks .outside rest := by
  rw [flagged_comment comment, commaMarks_append (notMem_leaves (by decide) (by decide) comment)]

/-- What a step of the comment pass can be: it reads a character outside of comments, the end of a
line comment, or a character of a comment, which stands outside of literals. -/
theorem Stage.step_cases (s : Stage) (c : Char) (ahead : Option Char) :
    (∃ q, s = .code q ∧ Unopening q c ahead) ∨ (s = .line ∧ c = '\n') ∨
      (s.quoting = .outside ∧ (s.role c ahead).isCode = false ∧
        (s.next c ahead).quoting = .outside) := by
  cases s with
  | code q =>
      by_cases line : q = .outside ∧ c = '/' ∧ ahead = some '/'
      · right; right
        rw [Stage.role, Stage.next, if_pos line, if_pos line]
        exact ⟨line.1, rfl, rfl⟩
      · by_cases block : q = .outside ∧ c = '/' ∧ ahead = some '*'
        · right; right
          rw [Stage.role, Stage.next, if_neg line, if_neg line, if_pos block, if_pos block]
          exact ⟨block.1, rfl, rfl⟩
        · refine .inl ⟨q, rfl, fun outside slash => ⟨fun same => ?_, fun same => ?_⟩⟩
          · exact line ⟨outside, slash, same⟩
          · exact block ⟨outside, slash, same⟩
  | line =>
      by_cases newline : c = '\n'
      · exact .inr (.inl ⟨rfl, newline⟩)
      · right; right
        rw [Stage.role, Stage.next, if_neg newline, if_neg newline]
        exact ⟨rfl, rfl, rfl⟩
  | opening =>
      right; right
      rw [Stage.role]
      split <;> exact ⟨rfl, rfl, rfl⟩
  | block =>
      right; right
      rw [Stage.role, Stage.next]
      constructor
      · rfl
      · split <;> split <;> exact ⟨rfl, rfl⟩
  | closing => exact .inr (.inr ⟨rfl, rfl, rfl⟩)

/-- What the comment pass leaves of one character is read by the comma pass as that character was,
and leads it to where the comment pass goes on. -/
theorem commaMarks_leaves (s : Stage) (c : Char) (ahead : Option Char) (rest : List Char) :
    commaMarks s.quoting (leaves (c, s.role c ahead) ++ rest) =
      flagged (c, s.role c ahead) ++ commaMarks (s.next c ahead).quoting rest := by
  rcases s.step_cases c ahead with ⟨q, rfl, plain⟩ | ⟨rfl, rfl⟩ | ⟨before, comment, behind⟩
  · rw [plain.step.1, plain.step.2]
    cases q <;> rfl
  · rfl
  · rw [before, behind, commaMarks_comment comment]

theorem commaMarks_marks (s : Stage) (cs : List Char) :
    commaMarks s.quoting ((marks s cs).flatMap leaves) = (marks s cs).flatMap flagged := by
  induction cs generalizing s with
  | nil => rfl
  | cons c cs ih => rw [marks, List.flatMap_cons, List.flatMap_cons, commaMarks_leaves, ih]

/-! ### No comment is left -/

/-- A character and the next one do not open a comment outside of literals. -/
def Unopened (a b : Char × Bool) : Prop := ¬(a = ('/', false) ∧ (b.1 = '/' ∨ b.1 = '*'))

theorem isChain_append {front rest : List (Char × Bool)} (safe : ('/', false) ∉ front)
    (chain : rest.IsChain Unopened) : (front ++ rest).IsChain Unopened := by
  induction front with
  | nil => exact chain
  | cons a front ih =>
      rw [List.mem_cons, not_or] at safe
      refine List.isChain_cons.mpr ⟨fun b _ opens => safe.1 opens.1.symm, ih safe.2⟩

/-- The next character is left as it is, if it starts no comment. -/
theorem head?_marks {cs : List Char} {d : Char} (slash : d ≠ '/') (first : cs.head? = some d) :
    ((marks (.code .outside) cs).flatMap flagged).head? = some (d, false) := by
  obtain ⟨rest, rfl⟩ := List.head?_eq_some_iff.mp first
  have plain : Unopening .outside d rest.head? := fun _ same => absurd same slash
  rw [marks, plain.step.2]
  rfl

/-- A slash that is left outside of literals has no slash and no star behind it, for it would have
opened a comment with it. -/
theorem isChain_slash {cs : List Char} (plain : Unopening .outside '/' cs.head?)
    (later : ((marks (.code .outside) cs).flatMap flagged).IsChain Unopened) :
    (('/', false) :: (marks (.code .outside) cs).flatMap flagged).IsChain Unopened := by
  refine List.isChain_cons.mpr ⟨fun b next opens => ?_, later⟩
  cases first : cs.head? with
  | none =>
      rw [List.head?_eq_none_iff.mp first] at next
      cases next
  | some d =>
      have other := plain rfl rfl
      rw [first] at other
      have slash : d ≠ '/' := fun same => other.1 (congrArg some same)
      rw [head?_marks slash first] at next
      cases next
      rcases opens.2 with same | same
      · exact slash same
      · exact other.2 (congrArg some same)

theorem isChain_marks (s : Stage) (cs : List Char) :
    ((marks s cs).flatMap flagged).IsChain Unopened := by
  induction cs generalizing s with
  | nil => exact .nil
  | cons c cs ih =>
      rw [marks, List.flatMap_cons]
      have later := ih (s.next c cs.head?)
      rcases s.step_cases c cs.head? with ⟨q, rfl, plain⟩ | ⟨rfl, rfl⟩ | ⟨-, comment, -⟩
      · rw [plain.step.2]
        rw [plain.step.1] at later ⊢
        by_cases bare : q = .outside ∧ c = '/'
        · obtain ⟨rfl, rfl⟩ := bare
          exact isChain_slash plain later
        · refine isChain_append (fun slash => bare ?_) later
          cases q with
          | outside => exact ⟨rfl, (Prod.mk.inj (List.mem_singleton.mp slash)).1.symm⟩
          | inside => cases (Prod.mk.inj (List.mem_singleton.mp slash)).2
          | escaped => cases (Prod.mk.inj (List.mem_singleton.mp slash)).2
      · exact isChain_append (by simp [flagged, leaves, Stage.role]) later
      · refine isChain_append (fun slash => ?_) later
        rw [flagged_comment comment] at slash
        obtain ⟨d, member, same⟩ := List.mem_map.mp slash
        obtain rfl := (Prod.mk.inj same).1
        exact notMem_leaves (by decide) (by decide) comment member

theorem head?_commaMarks (q : Quoting) (cs : List Char) :
    (commaMarks q cs).head? = cs.head?.map (·, q != .outside) := by
  cases cs <;> rfl

/-- Where no comment is opened the comment pass changes nothing. -/
theorem flatMap_leaves_of_isChain (q : Quoting) (cs : List Char)
    (chain : (commaMarks q cs).IsChain Unopened) :
    (marks (.code q) cs).flatMap leaves = cs := by
  induction cs generalizing q with
  | nil => rfl
  | cons c cs ih =>
      rw [commaMarks, List.isChain_cons, head?_commaMarks] at chain
      obtain ⟨neighbours, later⟩ := chain
      have plain : Unopening q c cs.head? := by
        rintro rfl rfl
        constructor <;>
          · intro next
            exact neighbours _ (by rw [next]; rfl) ⟨rfl, by decide⟩
      rw [marks, List.flatMap_cons, plain.step.1, ih _ later, plain.leaves_eq]
      rfl

/-! ### One pass -/

theorem closesNext_leaves (ms : List (Char × Role)) :
    closesNext (ms.flatMap leaves) = closesBehind ms := by
  induction ms with
  | nil => rfl
  | cons m ms ih =>
      rw [closesNext, closesBehind, Text.trimStart] at ih ⊢
      rw [List.flatMap_cons]
      cases code : m.2.isCode with
      | true =>
          rw [leaves_of_isCode code]
          cases blank : Text.isBlank m.1 <;> simp [code, blank, ih]
      | false =>
          have skipped : ∀ c ∈ leaves m, Text.isBlank c = true := by
            intro c member
            rcases mem_leaves_comment code c member with rfl | rfl <;> rfl
          rw [List.dropWhile_append_of_pos skipped]
          simp [code, ih]

theorem map_fst_flagged (ms : List (Char × Role)) :
    (ms.flatMap flagged).map Prod.fst = ms.flatMap leaves := by
  rw [List.map_flatMap]
  exact List.flatMap_congr fun m _ => by simp [flagged, Function.comp_def]

theorem dropMarked_append {cs : List Char} (other : ',' ∉ cs) (rest : List (Char × Bool)) :
    dropMarked (cs.map (·, false) ++ rest) = cs ++ dropMarked rest := by
  induction cs with
  | nil => rfl
  | cons c cs ih =>
      rw [List.mem_cons, not_or] at other
      have comma : (c == ',') = false := beq_eq_false_iff_ne.mpr (Ne.symm other.1)
      simp [dropMarked, comma, ih other.2]

theorem dropMarked_flagged (ms : List (Char × Role)) :
    dropMarked (ms.flatMap flagged) = inOnePass ms := by
  induction ms with
  | nil => rfl
  | cons m ms ih =>
      obtain ⟨c, role⟩ := m
      rw [List.flatMap_cons, inOnePass, ← closesNext_leaves, ← map_fst_flagged, ← ih]
      cases code : role.isCode with
      | true =>
          cases role with
          | outside => rfl
          | inside => rfl
          | line => cases code
          | block => cases code
          | blockEnd => cases code
      | false =>
          have outside : (role == .outside) = false := by
            cases role with
            | outside => cases code
            | _ => rfl
          rw [flagged_comment code, outside,
            dropMarked_append (notMem_leaves (by decide) (by decide) code)]
          rfl

/-- Both passes are machines that read one character at a time. They agree on what is quoted, and
one after the other they are one pass over the text. -/
theorem passes_agree_on_literals (text : String) :
    (∀ s cs, stripComments s cs = remains s.stage cs) ∧
    (∀ s cs, stripCommas s cs = dropMarked (commaMarks s.quoting cs)) ∧
    (marks (.code .outside) text.toList).map Prod.fst = text.toList ∧
    stripComments .plain text.toList = (marks (.code .outside) text.toList).flatMap leaves ∧
    commaMarks .outside (stripComments .plain text.toList) =
      (marks (.code .outside) text.toList).flatMap flagged ∧
    (commaMarks .outside (stripComments .plain text.toList)).IsChain Unopened ∧
    stripComments .plain (stripComments .plain text.toList) = stripComments .plain text.toList ∧
    plainJson text = String.ofList (inOnePass (marks (.code .outside) text.toList)) := by
  have left := stripComments_eq_leaves text.toList
  have agree : commaMarks .outside (stripComments .plain text.toList) =
      (marks (.code .outside) text.toList).flatMap flagged := by
    rw [left]
    exact commaMarks_marks (.code .outside) text.toList
  have unopened : (commaMarks .outside (stripComments .plain text.toList)).IsChain Unopened := by
    rw [agree]
    exact isChain_marks (.code .outside) text.toList
  have again : stripComments .plain (stripComments .plain text.toList) =
      stripComments .plain text.toList := by
    rw [stripComments_eq_leaves (stripComments .plain text.toList)]
    exact flatMap_leaves_of_isChain .outside _ unopened
  have onePass : plainJson text =
      String.ofList (inOnePass (marks (.code .outside) text.toList)) := by
    rw [plainJson, stripCommas_eq, CommaState.quoting, agree, dropMarked_flagged]
  exact ⟨stripComments_eq, stripCommas_eq, map_fst_marks (.code .outside) text.toList, left, agree,
    unopened, again, onePass⟩

/- A quote in a comment opens no literal, and a comma in a literal is no comma. -/
example :
    inOnePass (marks (.code .outside)
      ['[', '/', '*', '"', '*', '/', '"', ',', ']', '"', ',', '/', '/', ',', '\n', ']']) =
    ['[', ' ', '"', ',', ']', '"', '\n', ']'] := by
  decide

end RootedBuild.Descriptor

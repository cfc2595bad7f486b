import Mathlib.Tactic.Common
import TapAudit.Proofs.Script.Outline
import TapAudit.Proofs.Script.Walk
import TapAudit.Proofs.Text.Lines

/-!
# Reading undoes rendering

`declarations_render`: the declarations of a rendered formula are the nodes of its outline in
preorder, and reading it leaves no note. It holds for outlines of any depth and for any indentation.

Each statement of an outline is a line of its own (`IsLine`), so a walk takes one action for it
(`readLine_statement`). The rest is an induction over the outline (`readLines_body`): reading the
statements of a body declares its nodes, moves the line number and the count on by as much, and
leaves the open blocks as they were.
-/

namespace TapAudit.Script

open Text

/-! ## Lines -/

/-- A line that is a single statement. -/
structure IsLine (line : List Char) : Prop where
  strip_eq : strip line = line
  ne_nil : line ≠ []
  not_comment : line.head? ≠ some '#'
  not_endLine : line ≠ "__END__".toList
  parts_eq : statementParts .code line = [line]
  noHeredoc : ¬ "<<".toList <:+: line
  onOneLine : '\n' ∉ line

theorem IsLine.statements_eq {line : List Char} (h : IsLine line) : statements line = [line] := by
  rw [statements, h.parts_eq, List.map_singleton, h.strip_eq]
  simp [h.ne_nil]

theorem Walk.readLine_statement {w : Walk} {line : List Char} (h : IsLine line)
    (hstopped : w.stopped = false) (hheredoc : w.heredoc = none) :
    w.readLine line = Walk.act { w with line := w.line + 1 } (action line) := by
  rw [readLine_code hstopped hheredoc (h.strip_eq.symm ▸ h.not_endLine), h.strip_eq,
    h.statements_eq, heredoc?_eq_none h.noHeredoc, readStatements_singleton]
  · exact setHeredoc_bind ((heredoc_act _ _).trans hheredoc)
  · simp [h.strip_eq, h.ne_nil, h.not_comment]

/-! ## The statements of an outline -/

theorem noHeredoc_of_not_mem {text : List Char} (h : '<' ∉ text) : ¬ "<<".toList <:+: text :=
  fun hin => h (hin.subset (by decide))

theorem eq_angle_of_mem {c : Char} (h : c ∈ "<<".toList) : c = '<' := by
  simpa using h

theorem noHeredoc_append {front text : List Char} (hfront : '<' ∉ front)
    (h : ¬ "<<".toList <:+: text) : ¬ "<<".toList <:+: front ++ text := by
  refine fun hin => h (within_of_within_append (by decide) (fun c hc => ?_) hin)
  rwa [eq_angle_of_mem hc]

theorem noHeredoc_append_tail {front text : List Char} (hfront : ¬ "<<".toList <:+: front)
    (h : '<' ∉ text) : ¬ "<<".toList <:+: front ++ text := by
  refine fun hin => hfront (within_of_append_within (by decide) (fun c hc => ?_) hin)
  rwa [eq_angle_of_mem hc]

theorem noHeredoc_literal (a : Argument) : ¬ "<<".toList <:+: literal a.text := by
  have hrest : ¬ "<<".toList <:+: a.text ++ ['"'] := noHeredoc_append_tail a.noHeredoc (by decide)
  have hquote : '<' ∉ ['"'] := by decide
  exact noHeredoc_append hquote hrest

theorem isLine_append {word tail : List Char} (hword : ∀ c ∈ word, isWord c = true)
    (hne : word ≠ []) (hlast : ∃ c, tail.getLast? = some c ∧ isBlank c = false)
    (hparts : statementParts .code tail = [tail]) (hheredoc : ¬ "<<".toList <:+: tail)
    (honeLine : '\n' ∉ tail) : IsLine (word ++ ' ' :: tail) := by
  obtain ⟨c, rest, rfl⟩ := List.exists_cons_of_ne_nil hne
  obtain ⟨d, hd, hblank⟩ := hlast
  have hc : isWord c = true := hword c (by simp)
  have hfeed : '\n' ∉ c :: rest := fun hmem => absurd (hword _ hmem) (by decide)
  have hplain : ∀ e ∈ c :: rest ++ [' '], isPlain e = true := by
    intro e he
    rcases List.mem_append.mp he with he | he
    · exact isPlain_of_isWord (hword e he)
    · rw [List.mem_singleton.mp he]
      decide
  have hsplit : c :: rest ++ ' ' :: tail = c :: rest ++ [' '] ++ tail := by simp
  refine ⟨strip_eq_self ?_ ?_, by simp, ?_, ?_, ?_, ?_, ?_⟩
  · rintro e ⟨⟩
    exact isBlank_of_isWord hc
  · intro e he
    rw [hsplit, List.getLast?_append, hd] at he
    cases he
    exact hblank
  · rintro ⟨⟩
    exact absurd hc (by decide)
  · intro heq
    exact absurd (heq ▸ by simp : ' ' ∈ "__END__".toList) (by decide)
  · rw [hsplit]
    exact statementParts_plain_append hplain hparts
  · rw [hsplit]
    refine noHeredoc_append (fun hmem => ?_) hheredoc
    rcases List.mem_append.mp hmem with hmem | hmem
    · exact absurd (hword _ hmem) (by decide)
    · cases List.mem_singleton.mp hmem
  · simp only [List.mem_append, List.mem_cons, not_or]
    exact ⟨by simpa using hfeed, by decide, honeLine⟩

/-! ### Attributes -/

theorem attributeKinds_facts : ∀ entry ∈ attributeKinds,
    isCallName entry.1.toList = true ∧ entry.1.toList ∉ reservedWords.map String.toList ∧
      entry.1.toList ∉ ["version", "include", "bottle"].map String.toList ∧
        kindOf? attributeKinds entry.1.toList = some entry.2 := by
  decide

theorem callAction_attribute {word : String} {kind : Kind} (hknown : (word, kind) ∈ attributeKinds)
    {argument : List Char} (hne : argument ≠ []) :
    callAction word.toList argument = .declare kind argument false := by
  obtain ⟨-, -, hother, hkind⟩ := attributeKinds_facts _ hknown
  simp only [List.map_cons, List.map_nil, List.mem_cons, List.not_mem_nil, or_false,
    not_or] at hother
  rw [callAction, if_neg hother.1, if_neg hother.2.1, if_neg hother.2.2, if_neg fun h => hne h.2]
  simp only [hkind]

theorem literal_ne_nil (content : List Char) : literal content ≠ [] :=
  List.cons_ne_nil _ _

theorem feed_not_mem_literal (a : Argument) : '\n' ∉ literal a.text := by
  simp [literal, a.onOneLine]

theorem getLast?_literal (content : List Char) : (literal content).getLast? = some '"' := by
  rw [literal, ← List.cons_append, List.getLast?_concat]

theorem strip_literal (content : List Char) : strip (literal content) = literal content := by
  refine strip_eq_self ?_ ?_
  · rintro c ⟨⟩
    decide
  · intro c hc
    rw [getLast?_literal] at hc
    cases hc
    decide

theorem Attribute.isLine (a : Attribute) : IsLine a.statement := by
  obtain ⟨hname, -⟩ := attributeKinds_facts _ a.isKnown
  refine isLine_append (isWord_of_mem_callName hname) (fun h => ?_)
    ⟨'"', getLast?_literal _, by decide⟩ (statementParts_literal a.argument.isContent)
    (noHeredoc_literal a.argument) (feed_not_mem_literal a.argument)
  rw [h] at hname
  cases hname

theorem Attribute.action_statement (a : Attribute) :
    action a.statement = .declare a.kind (literal a.argument.text) false := by
  obtain ⟨hname, hfree, -⟩ := attributeKinds_facts _ a.isKnown
  have hempty : blankLiterals (literal a.argument.text) = ['"', '"'] := by
    simpa [blankLiterals] using blankLiterals_literal a.argument.isContent []
  have hcode (word : List Char) : (word ++ ' ' :: ['"', '"']).getLast? = some '"' := by simp
  rw [Attribute.statement, action_call hname hfree (by rw [hempty]; decide), hempty,
    endsInDo_eq_false (by rw [hcode]; decide), if_neg Bool.false_ne_true, strip_literal,
    callAction_attribute a.isKnown (literal_ne_nil _)]
  rintro ⟨front, hfront⟩
  have hlast := congrArg List.getLast? hfront
  rw [hcode, List.getLast?_append] at hlast
  exact absurd (Option.some.inj hlast : 'o' = '"') (by decide)

/-! ### Openers -/

theorem ne_nil_of_isCallName {name : List Char} (h : isCallName name = true) : name ≠ [] := by
  rintro rfl
  cases h

theorem ne_nil_of_isName {name : List Char} (h : isName name = true) : name ≠ [] := by
  rintro rfl
  cases h

theorem isPlain_of_mem_do : ∀ c ∈ " do".toList, isPlain c = true :=
  List.all_eq_true.mp (by decide)

theorem isLine_call (word : CallWord) (argument : Option Argument) :
    IsLine (Opener.call word argument).statement := by
  refine isLine_append (isWord_of_mem_callName word.isCallName)
    (ne_nil_of_isCallName word.isCallName) ⟨'o', ?_, by decide⟩ ?_ ?_ ?_
  · rw [List.getLast?_append]
    rfl
  · cases argument with
    | none =>
      exact statementParts_of_plain fun c hc => isPlain_of_mem_do c (List.mem_cons_of_mem _ hc)
    | some a =>
      rw [quotedArgument, List.append_assoc]
      exact statementParts_literal_append a.isContent (statementParts_of_plain isPlain_of_mem_do)
  · cases argument with
    | none => exact noHeredoc_of_not_mem (by decide)
    | some a =>
      rw [quotedArgument, List.append_assoc]
      exact noHeredoc_append_tail (noHeredoc_literal a) (by decide)
  · cases argument with
    | none => decide
    | some a => simp [quotedArgument, feed_not_mem_literal a]

theorem strip_quotedArgument (word : CallWord) (argument : Option Argument) :
    strip (quotedArgument argument) = (Opener.call word argument).argument := by
  cases argument with
  | none => rfl
  | some a =>
    have hblanks : ∀ c ∈ [' '], isBlank c = true := List.forall_mem_singleton.mpr isBlank_space
    exact (strip_append_blanks _ hblanks).trans (strip_literal a.text)

theorem action_call_statement (word : CallWord) (argument : Option Argument) :
    action (Opener.call word argument).statement =
      .declare (Opener.call word argument).kind (Opener.call word argument).argument true := by
  have hdo : blankLiterals "do".toList = "do".toList :=
    blankLiterals_of_unquoted fun c hc =>
      isQuote_of_isPlain (isPlain_of_mem_do c (List.mem_cons_of_mem _ hc))
  have hspaced : blankLiterals ([' '] ++ "do".toList) = [' '] ++ "do".toList :=
    blankLiterals_of_unquoted fun c hc => isQuote_of_isPlain (isPlain_of_mem_do c hc)
  -- The code of the argument: nothing, or an empty literal.
  obtain ⟨code, hcode, hlast, hassigned⟩ : ∃ code,
      blankLiterals (quotedArgument argument ++ "do".toList) = code ++ "do".toList ∧
        endsWord (some (code.getLast?.getD ' ')) = false ∧ '=' ∉ code ++ "do".toList := by
    cases argument with
    | none => exact ⟨[], hdo, by decide, by decide⟩
    | some a =>
      refine ⟨"\"\" ".toList, ?_, by decide, by decide⟩
      rw [quotedArgument, List.append_assoc, blankLiterals_literal a.isContent, hspaced]
      rfl
  have hspace : endsWord (quotedArgument argument).getLast? = false := by
    cases argument with
    | none => rfl
    | some a =>
      rw [quotedArgument, List.getLast?_concat]
      exact isWord_of_isBlank isBlank_space
  have hstrip : strip (quotedArgument argument ++ "do".toList) =
      quotedArgument argument ++ "do".toList := by
    refine strip_eq_self ?_ ?_
    · cases argument <;> rintro c ⟨⟩ <;> decide
    · intro c hc
      rw [List.getLast?_append] at hc
      cases hc
      decide
  have hblock : endsInDo (word.text ++ ' ' :: (code ++ "do".toList)) = true := by
    have hfront : endsWord (word.text ++ ' ' :: code).getLast? = false := by
      rw [List.getLast?_append, List.getLast?_cons]
      exact hlast
    simpa using endsInDo_append hfront
  rw [Opener.statement, action_call word.isCallName word.isFree (hcode ▸ hassigned), hcode, hblock,
    if_pos rfl, hstrip, beforeDo_append none (by simpa using hspace), strip_quotedArgument word]
  rfl

theorem isLine_method (name : MethodName) : IsLine (Opener.method name).statement := by
  have hplain : ∀ c ∈ name.text, isPlain c = true ∧ isBlank c = false ∧ c ≠ '<' := by
    intro c hc
    rcases List.mem_append.mp hc with hc | hc
    · have hword := isWord_of_mem_name name.isName c hc
      refine ⟨isPlain_of_isWord hword, isBlank_of_isWord hword, ?_⟩
      rintro rfl
      exact absurd hword (by decide)
    · rcases name.isMark with hmark | hmark | hmark | hmark
      · rw [hmark] at hc
        cases hc
      all_goals
        rw [hmark, List.mem_singleton] at hc
        subst hc
        decide
  have hne : name.text ≠ [] :=
    fun h => ne_nil_of_isName name.isName (List.append_eq_nil_iff.mp h).1
  refine isLine_append (isWord_of_mem_reserved (by decide)) (by decide)
    ⟨name.text.getLast hne, List.getLast?_eq_getLast_of_ne_nil hne,
      (hplain _ (List.getLast_mem hne)).2.1⟩
    (statementParts_of_plain fun c hc => (hplain c hc).1)
    (noHeredoc_of_not_mem fun hmem => (hplain _ hmem).2.2 rfl)
    (fun hmem => absurd (hplain _ hmem).2.1 (by decide))

theorem isLine_control (word : ControlWord) (subject : Subject) :
    IsLine (Opener.control word subject).statement := by
  have hnotEmpty : ∀ w ∈ controlWords, w.toList ≠ [] := by decide
  have hword := isWord_of_mem_reserved (List.mem_append_right _ word.isControl)
  have hsubject := subject.areWord
  have hne := subject.ne_nil
  refine isLine_append hword (hnotEmpty _ word.isControl)
    ⟨subject.text.getLast hne, List.getLast?_eq_getLast_of_ne_nil hne,
      isBlank_of_isWord (hsubject _ (List.getLast_mem hne))⟩
    (statementParts_of_plain fun c hc => isPlain_of_isWord (hsubject c hc))
    (noHeredoc_of_not_mem fun hmem => ?_) (fun hmem => ?_)
  all_goals exact absurd (hsubject _ hmem) (by decide)

theorem Opener.isLine (o : Opener) : IsLine o.statement := by
  cases o with
  | call word argument => exact isLine_call word argument
  | method name => exact isLine_method name
  | control word subject => exact isLine_control word subject

theorem Opener.action_statement (o : Opener) :
    action o.statement = .declare o.kind o.argument true := by
  cases o with
  | call word argument => exact action_call_statement word argument
  | method name => exact action_method name.isName name.isMark
  | control word subject =>
    exact action_control word.isControl subject.areWord subject.isNotEnd

/-! ### The class -/

theorem isLine_closing : IsLine closing := by
  refine ⟨by decide, by decide, by decide, by decide, by decide, ?_, by decide⟩
  exact noHeredoc_of_not_mem (by decide)

theorem action_closing : action closing = .close := by
  decide

theorem Outline.isLine_header (o : Outline) : IsLine o.header := by
  have hword : ∀ c ∈ o.name.initial :: o.name.rest, isWord c = true := by
    intro c hc
    rcases List.mem_cons.mp hc with rfl | hc
    · exact isWord_of_isUpper o.name.isCapital
    · exact o.name.areWord c hc
  rw [Outline.header, ← List.cons_append]
  refine isLine_append (isWord_of_mem_reserved (by decide)) (by decide) ⟨'a', ?_, by decide⟩ ?_
    (noHeredoc_append (fun hmem => ?_) (by decide)) (fun hmem => ?_)
  · rw [List.getLast?_append]
    rfl
  · exact statementParts_plain_append (fun c hc => isPlain_of_isWord (hword c hc))
      (statementParts_of_plain (List.all_eq_true.mp (by decide)))
  · exact absurd (hword _ hmem) (by decide)
  · rcases List.mem_append.mp hmem with hmem | hmem
    · exact absurd (hword _ hmem) (by decide)
    · exact absurd hmem (by decide)

theorem Outline.action_header (o : Outline) : action o.header = .openClass o.header true :=
  Script.action_header o.name.isCapital o.name.areWord

/-! ## Walking an outline -/

namespace Walk

/-- A walk that is so many lines and declarations further on, with the same blocks open. -/
def moved (w : Walk) (lines declared : Nat) : Walk :=
  { w with line := w.line + lines, declared := w.declared + declared }

/-- A walk in a block that the last declaration has opened. -/
def inside (w : Walk) : Walk :=
  { w.moved 1 1 with stack := some w.declared :: w.stack }

theorem moved_moved (w : Walk) (lines more declared others : Nat) :
    (w.moved lines declared).moved more others = w.moved (lines + more) (declared + others) := by
  simp [moved, Nat.add_assoc]

theorem parent_moved (w : Walk) (lines declared : Nat) :
    (w.moved lines declared).parent = w.parent := rfl

theorem readLine_attribute {w : Walk} (a : Attribute) (hstopped : w.stopped = false)
    (hheredoc : w.heredoc = none) :
    w.readLine a.statement =
      pure ([{ kind := a.kind, line := w.line + 1, parent := w.parent,
               argument := literal a.argument.text, opensBlock := false }], w.moved 1 1) := by
  rw [readLine_statement a.isLine hstopped hheredoc, a.action_statement]
  rfl

theorem readLine_opener {w : Walk} (o : Opener) (hstopped : w.stopped = false)
    (hheredoc : w.heredoc = none) :
    w.readLine o.statement =
      pure ([{ kind := o.kind, line := w.line + 1, parent := w.parent, argument := o.argument,
               opensBlock := true }], w.inside) := by
  rw [readLine_statement o.isLine hstopped hheredoc, o.action_statement]
  rfl

theorem readLine_closing {w : Walk} (lines declared : Nat) (hstopped : w.stopped = false)
    (hheredoc : w.heredoc = none) :
    (w.inside.moved lines declared).readLine closing =
      pure ([], w.moved (1 + lines + 1) (1 + declared)) := by
  have hread := readLine_statement (w := w.inside.moved lines declared) isLine_closing hstopped
    hheredoc
  rw [hread, action_closing]
  simp [act, moved, inside, Nat.add_assoc]

/-- Reading the statements of a body declares its nodes, and leaves the open blocks as they were. -/
theorem readLines_body (b : Body) (w : Walk) (hstopped : w.stopped = false)
    (hheredoc : w.heredoc = none) :
    w.readLines b.statements =
      pure (b.declarations (w.line + 1) w.declared w.parent,
        w.moved b.statements.length
          (b.declarations (w.line + 1) w.declared w.parent).length) := by
  induction b generalizing w with
  | done => rfl
  | attr a rest ih =>
    have hattribute := readLine_attribute a hstopped hheredoc
    rw [Body.statements, readLines_cons_eq hattribute (ih (w.moved 1 1) hstopped hheredoc),
      moved_moved, Nat.add_comm 1, Nat.add_comm 1]
    rfl
  | block o inner rest ihInner ihRest =>
    have hopener := readLine_opener o hstopped hheredoc
    have hinner := ihInner w.inside hstopped hheredoc
    set found := inner.declarations (w.line + 1 + 1) (w.declared + 1) (some w.declared) with hfound
    have hclosing := readLine_closing inner.statements.length found.length hstopped hheredoc
    have hrest := ihRest (w.moved (1 + inner.statements.length + 1) (1 + found.length)) hstopped
      hheredoc
    have hline : (w.moved (1 + inner.statements.length + 1) (1 + found.length)).line + 1 =
        w.line + 1 + 1 + inner.statements.length + 1 := by
      simp only [moved]
      omega
    have hfirst : (w.moved (1 + inner.statements.length + 1) (1 + found.length)).declared =
        w.declared + 1 + found.length := by
      simp only [moved]
      omega
    rw [hline, hfirst, parent_moved, moved_moved] at hrest
    rw [Body.statements,
      readLines_cons_eq hopener (readLines_append_eq hinner (readLines_cons_eq hclosing hrest)),
      Body.declarations, ← hfound]
    congr 3 <;> simp only [List.length_cons, List.length_append] <;> omega

end Walk

/-! ## Reading undoes rendering -/

theorem Body.isLine (b : Body) : ∀ statement ∈ b.statements, IsLine statement := by
  induction b with
  | done => exact fun _ h => absurd h List.not_mem_nil
  | attr a rest ih =>
    intro statement hmem
    rcases List.mem_cons.mp hmem with rfl | hmem
    · exact a.isLine
    · exact ih statement hmem
  | block o inner rest ihInner ihRest =>
    intro statement hmem
    rcases List.mem_cons.mp hmem with rfl | hmem
    · exact o.isLine
    · rcases List.mem_append.mp hmem with hmem | hmem
      · exact ihInner statement hmem
      · rcases List.mem_cons.mp hmem with rfl | hmem
        · exact isLine_closing
        · exact ihRest statement hmem

theorem Outline.isLine (o : Outline) : ∀ statement ∈ o.statements, IsLine statement := by
  intro statement hmem
  rcases List.mem_cons.mp hmem with rfl | hmem
  · exact o.isLine_header
  · rcases List.mem_append.mp hmem with hmem | hmem
    · exact o.body.isLine statement hmem
    · rw [List.mem_singleton.mp hmem]
      exact isLine_closing

theorem map_strip_lines_render (o : Outline) (indent : Nat → Indent) (lastFeed : Bool) :
    (lines (o.render indent lastFeed)).map strip =
      o.statements ++ if lastFeed then [[]] else [] := by
  set indented := o.statements.mapIdx fun i statement => (indent i).text ++ statement
    with hindented
  have hne : indented ≠ [] := by simp [hindented, Outline.statements]
  have honeLine : ∀ line ∈ indented, '\n' ∉ line := by
    intro line hline
    obtain ⟨i, hi, rfl⟩ := List.mem_mapIdx.mp hline
    simp [(indent i).onOneLine, (o.isLine _ (List.getElem_mem hi)).onOneLine]
  have hstrip : indented.map strip = o.statements := by
    refine List.ext_getElem (by simp [hindented]) fun i _ hi => ?_
    simp only [hindented, List.getElem_map, List.getElem_mapIdx]
    rw [strip_blanks_append (indent i).areBlank, (o.isLine _ (List.getElem_mem hi)).strip_eq]
  rw [Outline.render, lines, ← hindented]
  cases lastFeed with
  | false => simpa [splitOn_joinWith hne honeLine] using hstrip
  | true =>
    have hsplit := splitOn_joinWith_append hne honeLine []
    simp only [if_true]
    rw [hsplit, List.map_append, hstrip]
    rfl

theorem Walk.readLines_class {header : List Char} {inner : List (List Char)}
    {found : List Declaration} {n m : Nat} (hheader : IsLine header)
    (haction : action header = .openClass header true)
    (hinner : Walk.readLines { line := 1, stack := [none], seenClass := true } inner =
      pure (found, Walk.moved { line := 1, stack := [none], seenClass := true } n m)) :
    Walk.readLines {} (header :: (inner ++ [closing])) =
      pure (found, { line := n + 2, declared := m, seenClass := true }) := by
  have hopening : Walk.readLine {} header =
      pure ([], { line := 1, stack := [none], seenClass := true }) := by
    rw [Walk.readLine_statement hheader rfl rfl, haction]
    rfl
  have hclosing (lines declared : Nat) :
      Walk.readLines { line := lines, declared, stack := [none], seenClass := true } [closing] =
        pure ([], { line := lines + 1, declared, seenClass := true }) := by
    rw [Walk.readLines_cons, Walk.readLine_statement isLine_closing rfl rfl, action_closing]
    rfl
  rw [Walk.readLines_cons_eq hopening (Walk.readLines_append_eq hinner (hclosing _ _)),
    List.nil_append, List.append_nil]
  show pure (found, ({ line := 1 + n + 1, declared := 0 + m, seenClass := true } : Walk)) = _
  rw [Nat.add_comm 1 n, Nat.zero_add]

theorem Outline.readLines_statements (o : Outline) :
    Walk.readLines {} o.statements =
      pure (o.declarations,
        { line := o.statements.length, declared := o.declarations.length, seenClass := true }) := by
  have hbody : Walk.readLines { line := 1, stack := [none], seenClass := true } o.body.statements =
      pure (o.declarations, Walk.moved { line := 1, stack := [none], seenClass := true }
        o.body.statements.length o.declarations.length) := Walk.readLines_body o.body _ rfl rfl
  rw [Outline.statements, Walk.readLines_class o.isLine_header o.action_header hbody]
  simp only [List.length_cons, List.length_append, List.length_nil]

/-- **Reading undoes rendering.** The declarations of a rendered formula are the nodes of its
outline in preorder, and reading it leaves no note. -/
theorem declarations_render (o : Outline) (indent : Nat → Indent) (lastFeed : Bool) :
    declarations (o.render indent lastFeed) = pure o.declarations := by
  have hread : ∃ n, Walk.readLines {} (lines (o.render indent lastFeed)) =
      pure (o.declarations,
        { line := n, declared := o.declarations.length, seenClass := true }) := by
    rw [← Walk.readLines_map_strip, map_strip_lines_render]
    cases lastFeed with
    | false =>
      refine ⟨o.statements.length, ?_⟩
      simpa using o.readLines_statements
    | true =>
      refine ⟨o.statements.length + 1, ?_⟩
      have hblank (w : Walk) : w.stopped = false → w.heredoc = none →
          w.readLines [[]] = pure ([], { w with line := w.line + 1 }) := fun hstopped hheredoc =>
        Walk.readLines_cons_eq (Walk.readLine_blank rfl hstopped hheredoc) (Walk.readLines_nil _)
      simpa using Walk.readLines_append_eq o.readLines_statements (hblank _ rfl rfl)
  obtain ⟨n, hread⟩ := hread
  rw [declarations, hread]
  rfl

end TapAudit.Script

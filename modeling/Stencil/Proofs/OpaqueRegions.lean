import Stencil.Proofs.ScanNode

/-!
# Opaque regions

A comment or a quoted block ends at the first occurrence of its closing mark behind the opening one,
whatever stands inside.  The closing marks may overlap with what stands in front of them, and the
opening mark of a block comment with the closing one, but no closing mark is found too early or too
late.
-/

namespace Stencil

/-!
## Nodes that are read and scanned

What the reader of pieces gives is also what the parser gives that sees one character at a time.
-/

/-- The text in front of the cursor `c` begins with the node, and `behind` is the cursor behind
it. -/
structure YieldsNode (c : Cursor) (node : Node) (behind : Cursor) : Prop where
  reads : Node.ReadsPiece c (.node node) behind
  scans : ∀ (s : Scanner) (fuel : Nat), s.Ready -> s.cursor = c -> 4 * s.size + 8 < fuel ->
    ∃ s', Scan.piece fuel s = .ok (.node node, s') ∧ s'.cursor = behind ∧ s'.Ready

structure RejectsNode (c : Cursor) (e : Located ParseError) : Prop where
  reads : Node.readPiece c = .error e
  scans : ∀ (s : Scanner) (fuel : Nat), s.Ready -> s.cursor = c -> 4 * s.size + 8 < fuel ->
    Scan.piece fuel s = .error (.rejected e)

theorem yieldsNode_of_reads {c behind : Cursor} {node : Node}
    (h : Node.ReadsPiece c (.node node) behind) : YieldsNode c node behind where
  reads := h
  scans := by
    intro s fuel ready hcursor hfuel
    subst hcursor
    have hpiece := Scan.agrees_piece fuel s ready hfuel
    rcases h with ⟨hlt, hread⟩
    rw [hread] at hpiece
    exact hpiece

theorem rejectsNode_of_reads {c : Cursor} {e : Located ParseError}
    (h : Node.readPiece c = .error e) : RejectsNode c e where
  reads := h
  scans := by
    intro s fuel ready hcursor hfuel
    subst hcursor
    have hpiece := Scan.agrees_piece fuel s ready hfuel
    rw [h] at hpiece
    exact hpiece

/-!
## Up to a closing mark
-/

namespace Cursor

theorem passes_append (r : String) (front rest : List Char) (l : Nat) :
    Passes ⟨r, front ++ rest, l⟩ front ⟨r, rest, l + newlines front⟩ where
  remaining_eq := rfl
  resource_eq := rfl
  line_eq := rfl

variable {mark inside : List Char}

theorem skipPast_append (hmark : Text.Unbordered mark) (h : ¬ mark <:+: inside) (r : String)
    (rest : List Char) (l : Nat) :
    (⟨r, inside ++ mark ++ rest, l⟩ : Cursor).skipPast mark
      = ⟨r, rest, l + newlines (inside ++ mark)⟩ :=
  skipPast_of_passes hmark h (passes_append r (inside ++ mark) rest l)

theorem skipPast_open (hmark : mark ≠ []) (h : ¬ mark <:+: inside) (r : String) (l : Nat) :
    (⟨r, inside, l⟩ : Cursor).skipPast mark = ⟨r, [], l + newlines inside⟩ := by
  have hpass := passes_append r inside [] l
  rw [List.append_nil] at hpass
  exact skipPast_of_end hmark h hpass rfl

end Cursor

/-!
## Opaque regions
-/

namespace Node

variable {inside : List Char}

theorem yields_lineComment (h : '\n' ∉ inside) (r : String) (rest : List Char) (l : Nat) :
    YieldsNode ⟨r, ['#', '#'] ++ inside ++ ['\n'] ++ rest, l⟩ (.comment ⟨r, l⟩)
      ⟨r, rest, l + 1⟩ := by
  have hmark : ¬ ['\n'] <:+: inside := fun hfound => h (hfound.mem List.mem_cons_self)
  have hlines : Cursor.newlines (inside ++ ['\n']) = 1 := by
    rw [Cursor.newlines_append, Cursor.newlines, List.count_eq_zero_of_not_mem h]
    rfl
  rw [← hlines, ← Cursor.skipPast_append Text.unbordered_newline hmark]
  exact yieldsNode_of_reads readsPiece_lineComment

theorem yields_lineComment_open (h : '\n' ∉ inside) (r : String) (l : Nat) :
    YieldsNode ⟨r, ['#', '#'] ++ inside, l⟩ (.comment ⟨r, l⟩) ⟨r, [], l⟩ := by
  have hmark : ¬ ['\n'] <:+: inside := fun hfound => h (hfound.mem List.mem_cons_self)
  have hlines : Cursor.newlines inside = 0 := List.count_eq_zero_of_not_mem h
  have hskip := Cursor.skipPast_open (List.cons_ne_nil _ _) hmark r l
  rw [hlines] at hskip
  rw [← Nat.add_zero l, ← hskip]
  exact yieldsNode_of_reads readsPiece_lineComment

theorem yields_blockComment (h : ¬ ['*', '#'] <:+: inside) (r : String) (rest : List Char)
    (l : Nat) :
    YieldsNode ⟨r, ['#', '*'] ++ inside ++ ['*', '#'] ++ rest, l⟩ (.comment ⟨r, l⟩)
      ⟨r, rest, l + Cursor.newlines inside⟩ := by
  have hlines : Cursor.newlines (inside ++ ['*', '#']) = Cursor.newlines inside :=
    Cursor.newlines_append _ _
  rw [← hlines, ← Cursor.skipPast_append Text.unbordered_commentEnd h]
  exact yieldsNode_of_reads readsPiece_blockComment

theorem yields_blockComment_open (h : ¬ ['*', '#'] <:+: inside) (r : String) (l : Nat) :
    YieldsNode ⟨r, ['#', '*'] ++ inside, l⟩ (.comment ⟨r, l⟩)
      ⟨r, [], l + Cursor.newlines inside⟩ := by
  rw [← Cursor.skipPast_open (List.cons_ne_nil _ _) h]
  exact yieldsNode_of_reads readsPiece_blockComment

theorem yields_quotedBlock (h : ¬ [']', ']', '#'] <:+: inside) (r : String) (rest : List Char)
    (l : Nat) :
    YieldsNode ⟨r, ['#', '[', '['] ++ inside ++ [']', ']', '#'] ++ rest, l⟩
      (.text (String.ofList inside) ⟨r, l⟩) ⟨r, rest, l + Cursor.newlines inside⟩ := by
  rw [List.append_assoc]
  exact yieldsNode_of_reads (readsPiece_quotedBlock_closed h rest)

theorem rejects_quotedBlock_open (h : ¬ [']', ']', '#'] <:+: inside) (r : String) (l : Nat) :
    RejectsNode ⟨r, ['#', '[', '['] ++ inside, l⟩ ⟨.unterminatedQuotedBlock, ⟨r, l⟩⟩ := by
  have hpass := Cursor.passes_append r inside [] l
  rw [List.append_nil] at hpass
  have hsplit := Cursor.splitAt?_of_end (List.cons_ne_nil _ _) h hpass rfl
  have hhash : (readHash ⟨r, l⟩ ⟨r, '[' :: '[' :: inside, l⟩).outcome
      = .error ⟨.unterminatedQuotedBlock, ⟨r, l⟩⟩ := by
    rw [outcome_hash_brackets, readQuotedBlock, hsplit]
    rfl
  apply rejectsNode_of_reads
  change readPiece ⟨r, '#' :: '[' :: '[' :: inside, l⟩ = _
  rw [readPiece_hash rfl, Attempt.eq_error_of_outcome hhash]
  rfl

/-- Whatever stands inside, an opaque region ends at the first closing mark and nowhere else.
Without a closing mark a comment goes on to the end of the text, and a quoted block is an error. -/
theorem opaque_regions_end (inside rest : List Char) (r : String) (l : Nat) :
    ('\n' ∉ inside ->
      YieldsNode ⟨r, ['#', '#'] ++ inside ++ ['\n'] ++ rest, l⟩ (.comment ⟨r, l⟩)
        ⟨r, rest, l + 1⟩
      ∧ YieldsNode ⟨r, ['#', '#'] ++ inside, l⟩ (.comment ⟨r, l⟩) ⟨r, [], l⟩)
    ∧ (¬ ['*', '#'] <:+: inside ->
      YieldsNode ⟨r, ['#', '*'] ++ inside ++ ['*', '#'] ++ rest, l⟩ (.comment ⟨r, l⟩)
        ⟨r, rest, l + Cursor.newlines inside⟩
      ∧ YieldsNode ⟨r, ['#', '*'] ++ inside, l⟩ (.comment ⟨r, l⟩)
        ⟨r, [], l + Cursor.newlines inside⟩)
    ∧ (¬ [']', ']', '#'] <:+: inside ->
      YieldsNode ⟨r, ['#', '[', '['] ++ inside ++ [']', ']', '#'] ++ rest, l⟩
        (.text (String.ofList inside) ⟨r, l⟩) ⟨r, rest, l + Cursor.newlines inside⟩
      ∧ RejectsNode ⟨r, ['#', '[', '['] ++ inside, l⟩ ⟨.unterminatedQuotedBlock, ⟨r, l⟩⟩) := by
  refine ⟨fun h => ⟨?_, ?_⟩, fun h => ⟨?_, ?_⟩, fun h => ⟨?_, ?_⟩⟩
  · exact yields_lineComment h r rest l
  · exact yields_lineComment_open h r l
  · exact yields_blockComment h r rest l
  · exact yields_blockComment_open h r l
  · exact yields_quotedBlock h r rest l
  · exact rejects_quotedBlock_open h r l

/-- A block comment that begins with a hash sign and ends in an asterisk, and a quoted block that
ends in a bracket, both with an opening mark inside. -/
theorem opaque_regions_end_overlapping :
    YieldsNode ⟨"t", ['#', '*'] ++ ['#', '*', '$', 'x', '*'] ++ ['*', '#'] ++ ['y'], 1⟩
      (.comment ⟨"t", 1⟩) ⟨"t", ['y'], 1⟩
    ∧ YieldsNode ⟨"t", ['#', '[', '['] ++ ['#', '[', '[', '\n', ']'] ++ [']', ']', '#'] ++ ['y'], 1⟩
      (.text "#[[\n]" ⟨"t", 1⟩) ⟨"t", ['y'], 2⟩
    ∧ RejectsNode ⟨"t", ['#', '[', '['] ++ ['\n', ']', ']'], 3⟩
      ⟨.unterminatedQuotedBlock, ⟨"t", 3⟩⟩ := by
  refine ⟨?_, ?_, ?_⟩
  · exact ((opaque_regions_end ['#', '*', '$', 'x', '*'] ['y'] "t" 1).2.1 (by decide)).1
  · exact ((opaque_regions_end ['#', '[', '[', '\n', ']'] ['y'] "t" 1).2.2 (by decide)).1
  · exact ((opaque_regions_end ['\n', ']', ']'] [] "t" 3).2.2 (by decide)).2

end Node

end Stencil

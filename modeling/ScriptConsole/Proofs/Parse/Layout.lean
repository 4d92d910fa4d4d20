import ScriptConsole.Parse.Script
import ScriptConsole.Proofs.Parse.Statement
import ScriptConsole.Proofs.Token.Spacing

/-! # Layout does not matter

What a source compiles to depends on the kinds and texts of its tokens without the comments,
and these do not depend on the white space and the comments between them.
-/

namespace ScriptConsole

/-- What compiling comes to apart from places: the trees without their spans and the numbers
of nodes, or the message of the failure. -/
def placeless : Except Diagnostic Script → Except String (List Stmt × NodeCounts)
  | .ok script => .ok (script.root.map Stmt.bare, script.counts)
  | .error diagnostic => .error diagnostic.message

namespace Parse

theorem length_significant_le (tokens : List Token) :
    (significant tokens).length ≤ tokens.length := by
  unfold significant
  rw [List.length_map]
  exact List.length_filter_le _ tokens

theorem enough_stepsFor (tokens : List Token) :
    2 * (significant tokens).length + 2 ≤ stepsFor tokens := by
  have fewer := length_significant_le tokens
  unfold stepsFor
  omega

theorem alike_start {tokens others : List Token} (limit : Option Nat) (symbols : SymbolTable)
    (same : significant tokens = significant others) :
    Alike (start limit symbols tokens) (start limit symbols others) where
  tokens := same
  symbols := rfl
  counts := rfl
  limit := rfl
  depth := rfl
  deepest := rfl

/-- Tokens that are the same but for comments and places are read alike. -/
theorem outcomes_runRoot {tokens others : List Token} (limit : Option Nat) (symbols : SymbolTable)
    (same : significant tokens = significant others) :
    Outcomes (fun stmts twins _ => stmts.map Stmt.bare = twins.map Stmt.bare)
      (runRoot limit symbols tokens) (runRoot limit symbols others) := by
  have plenty := enough_stepsFor others
  rw [← same] at plenty
  exact agree_root (enough_stepsFor tokens) plenty _ _ (alike_start limit symbols same) rfl

end Parse

/-- Sources whose tokens are the same but for comments and places compile to the same trees or
fail with the same message. -/
theorem compileSource_eq_of_significant {source other : Source} {tokens others : List Token}
    (symbols : SymbolTable) (accepted : Token.scan source.bytes = .ok tokens)
    (too : Token.scan other.bytes = .ok others) (same : significant tokens = significant others) :
    placeless (compileSource source symbols).1 = placeless (compileSource other symbols).1 ∧
      (compileSource source symbols).2 = (compileSource other symbols).2 := by
  have outcomes := Parse.outcomes_runRoot (some nestingLimit) symbols same
  unfold compileSource
  rw [accepted, too]
  dsimp only
  cases ran : Parse.runRoot (some nestingLimit) symbols tokens with
  | ok stmts state =>
      cases followed : Parse.runRoot (some nestingLimit) symbols others with
      | ok twins twin =>
          rw [ran, followed] at outcomes
          obtain ⟨alike, bare⟩ := outcomes
          exact ⟨by simp only [placeless, bare, alike.counts], alike.symbols⟩
      | error fault twin =>
          rw [ran, followed] at outcomes
          exact outcomes.elim
  | error fault state =>
      cases followed : Parse.runRoot (some nestingLimit) symbols others with
      | ok twins twin =>
          rw [ran, followed] at outcomes
          exact outcomes.elim
      | error reason twin =>
          rw [ran, followed] at outcomes
          obtain ⟨complaint, -, symbols⟩ := outcomes
          refine ⟨?_, symbols⟩
          simp only [placeless, Fault.diagnose, Diagnostic.report, complaint]

/-- Layout does not matter: sources that come to the same tokens without the comments compile
to the same trees or fail with the same message, and the tokens of a source come out again
with any white space and any comments written between them. -/
theorem compileSource_layout :
    (∀ (source other : Source) (symbols : SymbolTable) (tokens others : List Token),
      Token.scan source.bytes = .ok tokens → Token.scan other.bytes = .ok others →
      significant tokens = significant others →
        placeless (compileSource source symbols).1 = placeless (compileSource other symbols).1 ∧
          (compileSource source symbols).2 = (compileSource other symbols).2) ∧
      ∀ (source : Source) (tokens : List Token) (spaced : List UInt8),
        Token.scan source.bytes = .ok tokens →
        Token.Spaced ((significant tokens).map Prod.snd) spaced →
          ∃ others, Token.scan spaced = .ok others ∧ significant others = significant tokens :=
  ⟨fun _ _ symbols _ _ accepted too same =>
    compileSource_eq_of_significant symbols accepted too same,
    fun _ _ _ accepted written => Token.scan_respaced accepted written⟩

/-- An assignment with a tabulator, a comment and a newline between its tokens. -/
theorem compileSource_layout_assignment :
    ∃ tokens others, Token.scan (Utf8.encode "%a=1;") = .ok tokens ∧
      Token.scan (Utf8.encode "%a\t= /* one */ 1\n;") = .ok others ∧
      significant others = significant tokens ∧
      placeless (compile "" "%a=1;" (.empty 0)).1 =
        placeless (compile "" "%a\t= /* one */ 1\n;" (.empty 0)).1 := by
  obtain ⟨tokens, scanned, keys⟩ : ∃ tokens, Token.scan (Utf8.encode "%a=1;") = .ok tokens ∧
      (significant tokens).map Prod.snd =
        [Utf8.encode "%a", Utf8.encode "=", Utf8.encode "1", Utf8.encode ";"] :=
    ⟨_, rfl, by decide +kernel⟩
  have tabulator : Token.Gap (Utf8.encode "\t") :=
    ⟨.space rfl .nil, rfl, rfl, Token.paired_of_not_mem (by decide)⟩
  have newline : Token.Gap (Utf8.encode "\n") :=
    ⟨.space rfl .nil, rfl, rfl, Token.paired_of_not_mem (by decide)⟩
  have comment : Token.Gap (Utf8.encode " /* one */ ") := by
    have within : ¬ Utf8.encode "*/" <:+: Utf8.encode " one " := by decide
    exact ⟨.space rfl (.block within (.space rfl .nil)), rfl, rfl,
      Token.paired_of_not_mem (by decide)⟩
  have written : Token.Spaced ((significant tokens).map Prod.snd)
      (Utf8.encode "%a\t= /* one */ 1\n;") := by
    have bytes : Utf8.encode "%a\t= /* one */ 1\n;" =
        Utf8.encode "%a" ++ (Utf8.encode "\t" ++ (Utf8.encode "=" ++
          (Utf8.encode " /* one */ " ++ (Utf8.encode "1" ++ (Utf8.encode "\n" ++
            Utf8.encode ";"))))) := by decide +kernel
    rw [keys, bytes]
    exact .gap tabulator (.gap comment (.gap newline (.single _)))
  obtain ⟨others, again, same⟩ :=
    compileSource_layout.2 (.ofText "" "%a=1;") tokens _ scanned written
  have trees := compileSource_layout.1 (.ofText "" "%a=1;")
    (.ofText "" "%a\t= /* one */ 1\n;") (.empty 0) tokens others scanned again same.symm
  exact ⟨tokens, others, scanned, again, same, trees.1⟩

end ScriptConsole

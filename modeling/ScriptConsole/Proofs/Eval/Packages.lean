import ScriptConsole.Proofs.Console.Definitions
import ScriptConsole.Proofs.Eval.Results
import ScriptConsole.Proofs.Objects.Removal

/-! # Calls of functions in packages

While a package is the newest active one, calls reach the functions that were declared in it.
Only a qualified call does not if its namespace was never created but in front of it, by a
package (`ScriptConsole.Eval.package_reached`).
-/

namespace ScriptConsole.Eval

/-- The definitions that a declaration of a package makes, the newest first. -/
def packaged (package : Symbol) (filename : String) (definitions : List FunctionDef) :
    List Definition :=
  (definitions.map fun definition =>
    ⟨⟨definition.space, some package⟩, definition.name, .script filename definition⟩).reverse

theorem packaged_cons (package : Symbol) (filename : String) (definition : FunctionDef)
    (definitions : List FunctionDef) :
    packaged package filename (definition :: definitions) =
      packaged package filename definitions ++
        [⟨⟨definition.space, some package⟩, definition.name, .script filename definition⟩] := by
  unfold packaged
  rw [List.map_cons, List.reverse_cons]

theorem mem_packaged (package : Symbol) {definition : FunctionDef} {definitions : List FunctionDef}
    (member : definition ∈ definitions) (filename : String) :
    ⟨⟨definition.space, some package⟩, definition.name, .script filename definition⟩ ∈
      packaged package filename definitions := by
  unfold packaged
  rw [List.mem_reverse]
  exact List.mem_map_of_mem member

/-- The functions of a package are defined one after the other. -/
theorem forM_defineFunction (package : Symbol) (definitions : List FunctionDef)
    (console : Console) :
    ∃ world, definitions.forM (defineFunction (some package)) console =
        .ok () { console with world } ∧
      console.world.Makes (packaged package console.currentFile definitions) world := by
  induction definitions generalizing console with
  | nil => exact ⟨console.world, rfl, .refl⟩
  | cons definition definitions ih =>
      let defined : World := ((World.define ⟨definition.space, some package⟩ definition.name
        (.script console.currentFile definition)).run console.world).2
      obtain ⟨world, ran, makes⟩ := ih { console with world := defined }
      refine ⟨world, ran, ?_⟩
      rw [packaged_cons]
      exact (World.Makes.refl.defining (.define _ _ _)).trans makes

/-- Executing the declaration of a package makes its definitions. -/
theorem run_package (bound : Nat) (mark : Mark) (package : Symbol)
    (definitions : List FunctionDef) (console : Console) :
    ∃ declared, run (bound + 1) (.statement (.package mark package definitions)) console =
        .ok .normal declared ∧
      console.world.Makes (packaged package console.currentFile definitions) declared.world := by
  let noted := console.updateFrame fun frame => { frame with line := mark.span.first.line }
  have file : noted.currentFile = console.currentFile := by
    obtain ⟨world, ⟨frames, depth, counted⟩, nesting⟩ := console
    cases frames <;> rfl
  obtain ⟨world, ran, makes⟩ := forM_defineFunction package definitions noted
  rw [file] at makes
  refine ⟨{ noted with world }, ?_, makes⟩
  change (setLine mark.span.first.line >>= fun _ =>
    definitions.forM (defineFunction (some package)) >>= fun _ =>
      pure Completion.normal) console = _
  rw [bind_ok_iff]
  refine ⟨(), noted, rfl, ?_⟩
  rw [bind_ok_iff]
  exact ⟨(), _, ran, rfl⟩

/-- While a package is the newest active one, whatever else was done since it was declared,
plain calls reach the functions of the package that were defined last. Qualified calls do so
exactly if the namespace itself was created. -/
theorem package_reached {bound : Nat} {mark : Mark} {package : Symbol}
    {definitions : List FunctionDef} {console declared final : Console} {completion : Completion}
    {made : List Definition}
    (executed : run bound (.statement (.package mark package definitions)) console =
      .ok completion declared)
    (later : declared.world.Makes made final.world)
    (newest : final.world.spaces.active.head? = some package)
    {definition : FunctionDef} (member : definition ∈ definitions) :
    ∃ target,
      lastDefined? (made ++ packaged package console.currentFile definitions)
        ⟨definition.space, some package⟩ definition.name = some target ∧
      (definition.space = none → callee? final (.global definition.name) =
        some ⟨⟨none, some package⟩, definition.name, target⟩) ∧
      ∀ space, definition.space = some space →
        callee? final (.qualified space definition.name) =
          if final.world.spaces.contains (.ofSpace space) then
            some ⟨⟨some space, some package⟩, definition.name, target⟩
          else none := by
  have makes : console.world.Makes (made ++ packaged package console.currentFile definitions)
      final.world := by
    cases bound with
    | zero => contradiction
    | succ bound =>
        obtain ⟨after, ran, makes⟩ := run_package bound mark package definitions console
        rw [executed] at ran
        obtain ⟨_, rfl⟩ := EStateM.Result.ok.inj ran
        exact makes.trans later
  obtain ⟨target, last⟩ := exists_lastDefined?
    (List.mem_append_right made (mem_packaged package member console.currentFile))
  have defined : final.world.spaces.function? ⟨definition.space, some package⟩ definition.name =
      some target := by
    refine (makes.functions _ _).trans ?_
    rw [last, Option.some_or]
  refine ⟨target, last, ?_, ?_⟩
  · intro plain
    rw [plain] at defined
    exact Namespaces.resolve?_newest newest .global defined true
  · intro space qualified
    rw [qualified] at defined
    unfold callee? World.existingLayer?
    simp only
    split
    · exact Namespaces.resolve?_newest newest (.ofSpace space) defined true
    · rfl

section Sample

private def loud : Symbol :=
  ⟨0, false, "Loud"⟩

private def quietSpace : Symbol :=
  ⟨0, false, "Quiet"⟩

private def startMark : Mark :=
  ⟨0, .start, .start⟩

/-- A function that does nothing, in a namespace or in none. -/
private def idle (space : Option Symbol) : FunctionDef :=
  ⟨startMark, space, ⟨0, false, "f"⟩, [], ⟨startMark, []⟩⟩

/-- The declaration of a package with a plain and a qualified function. -/
private def declaration : Stmt :=
  .package startMark loud [idle none, idle (some quietSpace)]

/-- A new console that executed the declaration. -/
@[irreducible] private def declaring : Console :=
  ended (run 1 (.statement declaration) (.new {} 0))

/-- The console with the package active. -/
@[irreducible] private def activated : Console :=
  { declaring with world := ((World.activate loud).run declaring.world).2 }

private theorem run_declaring :
    run 1 (.statement declaration) (.new {} 0) = .ok .normal declaring := by
  obtain ⟨declared, ran, _⟩ :=
    run_package 0 startMark loud [idle none, idle (some quietSpace)] (.new {} 0)
  unfold declaring declaration
  rw [ran]
  rfl

private theorem makes_activated : declaring.world.Makes [] activated.world := by
  unfold activated
  exact .other .refl (.activate loud) (World.not_defining (World.Mild.activate loud).functions)

private theorem activated_spaces :
    activated.world.spaces.active.head? = some loud ∧
      activated.world.spaces.contains (.ofSpace quietSpace) = false := by
  decide +kernel

/-- A plain call reaches the function in the package. -/
theorem package_reached_plain :
    ∃ (console : Console) (package name : Symbol) (target : Callable),
      console.world.spaces.active.head? = some package ∧
      callee? console (.global name) = some ⟨⟨none, some package⟩, name, target⟩ := by
  obtain ⟨newest, _⟩ := activated_spaces
  obtain ⟨target, _, reached, _⟩ :=
    package_reached run_declaring makes_activated newest List.mem_cons_self
  exact ⟨activated, loud, _, target, newest, reached rfl⟩

/-- A qualified call finds nothing where the namespace was created in front of it alone. -/
theorem package_unreached :
    ∃ (console declared final : Console) (mark : Mark) (package space : Symbol)
      (definitions : List FunctionDef) (definition : FunctionDef),
      console.world.Reachable ∧
      run 1 (.statement (.package mark package definitions)) console = .ok .normal declared ∧
      declared.world.Makes [] final.world ∧
      final.world.spaces.active.head? = some package ∧
      definition ∈ definitions ∧ definition.space = some space ∧
      callee? final (.qualified space definition.name) = none := by
  obtain ⟨newest, missing⟩ := activated_spaces
  have absent : activated.world.existingLayer? quietSpace = none := by
    unfold World.existingLayer?
    simp only [missing, Bool.false_eq_true, ↓reduceIte]
  refine ⟨.new {} 0, declaring, activated, startMark, loud, quietSpace, _, idle (some quietSpace),
    .console {} 0, run_declaring, makes_activated, newest,
    List.mem_cons_of_mem _ List.mem_cons_self, rfl, ?_⟩
  unfold callee?
  simp only [absent]
  rfl

end Sample

end ScriptConsole.Eval

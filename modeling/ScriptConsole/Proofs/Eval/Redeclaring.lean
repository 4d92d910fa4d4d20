import ScriptConsole.Proofs.Eval.Conformance
import ScriptConsole.Proofs.Eval.Sessions
import ScriptConsole.Proofs.Objects.Copying

/-! # Declaring a datablock again

A declaration with the name of a live datablock of its class gives its fields to that one, which
keeps its number and its name (`ScriptConsole.Eval.redeclared`). It is read as a new datablock
would be, but for dynamic fields that the datablock had: these are all replaced by the ones of the
declaration, and they all stay if the declaration never has one
(`ScriptConsole.Eval.redeclared_keeps`).
-/

namespace ScriptConsole

/-- An object that is entered has the class and the fields of the draft. -/
theorem World.enter_fields (draft : Draft) (name : String) (world : World) :
    ∃ fresh, ((enter draft name).run world).2.registry.get? ((enter draft name).run world).1 =
        some fresh ∧
      fresh.info = draft.object.info ∧ fresh.persistent = draft.object.persistent ∧
        fresh.dynamic = draft.object.dynamic := by
  obtain ⟨symbol, layer, linked, _, number, registry⟩ := enter_registry draft name world
  rw [number, registry, Registry.get?_update, if_pos rfl, Registry.get?_register, if_pos rfl]
  exact ⟨_, rfl, rfl, rfl, rfl⟩

namespace Eval

/-- A declaration gives its fields to the object that it redefines. -/
theorem enterDrafted_redefined (ev : Evaluator) {declaration : ObjectDecl} {name : String}
    {draft : Draft} {console : Console} {id : Nat} (redefines : redefined? console.world
      declaration.isDatablock name draft.object.info = some id) :
    enterDrafted ev declaration (some (name, draft)) console =
      (do declareChildren ev id declaration.children; return some id)
        { console with world := ((World.copyFields id draft).run console.world).2 } := by
  have entered : enterDeclared ev declaration.isDatablock name draft console =
      .ok id { console with world := ((World.copyFields id draft).run console.world).2 } := by
    refine bind_ok_iff.mpr ⟨console.world, console, rfl, ?_⟩
    simp only [redefines]
    rfl
  change (enterDeclared ev declaration.isDatablock name draft >>= fun id => do
    declareChildren ev id declaration.children; return some id) console = _
  rw [bind_apply, entered]

/-- At every point of what a host does, declaring a datablock again changes the fields of the live
one alone. All dynamic fields are replaced by those of the declaration, or all stay as they are if
it never has one. Elements of persistent fields are those that the declaration gives to the last
field of the name with as many elements. So where no two fields of the class share a name, the
datablock is read as one that is entered with the fields of the declaration, in any world, if the
declaration has dynamic fields or the datablock had none. -/
theorem redeclared {console point between : Console} (hosting : Hosting (fun _ => True) console)
    {step : HostStep} (fair : step.Fair (PersistentField.Declared fun _ => True)) {bound : Nat}
    (passes : Passes bound (fun ev => take ev step) console point) {left : Nat}
    {declaration : ObjectDecl} {name : String} {draft : Draft}
    (made : drafted (run left) declaration point = .ok (some (name, draft)) between) {id : Nat}
    (redefines : redefined? between.world declaration.isDatablock name draft.object.info = some id)
    {existing : Object} (live : between.world.registry.get? id = some existing)
    (ofClass : existing.info = draft.object.info) :
    ∃ updated after, (∃ persistent dynamic, updated = { existing with persistent, dynamic }) ∧
      after.registry.get? id = some updated ∧
      (∀ other, other ≠ id → after.registry.get? other = between.world.registry.get? other) ∧
      after = { between.world with
        registry := { between.world.registry with objects := after.registry.objects } } ∧
      run (left + 1) (.declare declaration) point =
        (do declareChildren (run left) id declaration.children; return some id)
          { between with world := after } ∧
      ∀ other free, ∃ fresh,
        ((World.enter draft free).run other).2.registry.get?
          ((World.enter draft free).run other).1 = some fresh ∧
        existing.Replaced updated fresh ∧
        ((∀ name index, existing.slot? name index = none →
            updated.getField name index = fresh.getField name index) ↔
          draft.object.dynamic.isSome = true ∨ ∀ name index, existing.slot? name index = none →
            existing.getField name index = .empty) := by
  have starting : PersistentField.Starting (PersistentField.Declared fun _ => True) :=
    PersistentField.starting_of_all fun _ => .inl trivial
  have conformingThere : point.world.Conforming (PersistentField.Declared fun _ => True) :=
    passes.upheld (conforms_step starting) (conforms_take starting fair)
      (hosting.conforming_of starting)
  have upheld : Upheld (World.Conforming (PersistentField.Declared fun _ => True))
      (fun result => ∀ entry ∈ result,
        entry.2.object.Conforms (PersistentField.Declared fun _ => True))
      (drafted (run left) declaration point) :=
    (conforms_drafted starting declaration (run left) point
      (loyal_run (conforms_step starting) left) conformingThere).1
  rw [made] at upheld
  obtain ⟨conforming, conforms⟩ := upheld
  have shaped := (conforming.objects id existing live).shaped
  have shapedDraft := (conforms _ rfl).shaped
  refine ⟨existing.copyFieldsFrom draft.object, ((World.copyFields id draft).run between.world).2,
    existing.copyFieldsFrom_eq draft.object, ?_, ?_, rfl, ?_, ?_⟩
  · change (between.world.registry.update id _).get? id = _
    rw [Registry.get?_update, if_pos rfl, live, Option.map_some]
  · intro other different
    change (between.world.registry.update id _).get? other = _
    rw [Registry.get?_update, if_neg different.symm]
  · change declare (run left) declaration point = _
    rw [declare_eq, bind_apply, made]
    exact enterDrafted_redefined (run left) redefines
  · intro other free
    obtain ⟨fresh, entered, info, persistent, dynamic⟩ := World.enter_fields draft free other
    have replaced := Object.replaced_copyFieldsFrom ofClass.symm shaped shapedDraft info persistent
      dynamic
    refine ⟨fresh, entered, replaced, ?_⟩
    rw [← dynamic]
    exact replaced.dynamic_iff (info.trans ofClass.symm)

section Kept

/-- A datablock with a dynamic field. -/
def markedSource : String :=
  "datablock SimDataBlock(Mark) \x7b a = 1; \x7d;"

/-- A new console that ran the source. -/
@[irreducible] def markedConsole : Console :=
  ended (take (run 40) (.ask (.evaluate markedSource)) (.new {} 0))

/-- The name of the datablock in a script. -/
def markedName : Expr :=
  .literal ⟨0, ⟨⟨0, 0⟩, ⟨0, 0⟩⟩⟩ (.text ⟨0, false, "Mark"⟩)

/-- The declaration of a datablock of the same name without fields. -/
def bareDeclaration : ObjectDecl :=
  { mark := ⟨0, ⟨⟨0, 0⟩, ⟨0, 0⟩⟩⟩
    isDatablock := true
    className := ⟨0, false, "SimDataBlock"⟩
    name := some markedName
    copySource := none
    fields := []
    children := [] }

/-- A declaration without fields makes a new object of its class, if there is room to evaluate the
name. -/
private theorem drafted_bareDeclaration {console : Console} {info : ClassInfo}
    (room : console.nesting < console.world.config.maxExpressionDepth)
    (found : console.world.classInfo? "SimDataBlock" = some info)
    (datablock : info.isDatablock = true) (left : Nat) :
    drafted (run (left + 2)) bareDeclaration console =
      .ok (some ("Mark", .ofClass info)) console := by
  have named : declaredName (run (left + 2)) bareDeclaration.name console =
      .ok "Mark" console := by
    refine bind_ok_iff.mpr ⟨.text "Mark", console, ?_, rfl⟩
    change withNesting (run (left + 1) (.evaluation markedName)) console = _
    rw [withNesting_apply, if_neg (Nat.not_le.mpr room)]
    rfl
  have declared : (declaredClass? bareDeclaration : Eval (Option ClassInfo)) console =
      .ok (some info) console := by
    change EStateM.Result.ok ((declaredClass? bareDeclaration).run console.world).1
      { console with world := ((declaredClass? bareDeclaration).run console.world).2 } = _
    unfold declaredClass?
    rw [StateT.run_bind, StateT.run_get]
    simp only [pure_bind, show bareDeclaration.className.text = "SimDataBlock" from rfl, found,
      datablock, Bool.not_true, Bool.and_false, Bool.false_eq_true, ↓reduceIte]
    rfl
  refine bind_ok_iff.mpr ⟨"Mark", console, named, ?_⟩
  refine bind_ok_iff.mpr ⟨some info, console, declared, ?_⟩
  rfl

private theorem markedConsole_session : Session True [] markedConsole := by
  have proper : (Operation.evaluate markedSource).Proper True (Console.new {} 0).world := trivial
  unfold markedConsole
  exact .perform (.new {} 0) proper (fun _ => nofun) 40

private theorem markedConsole_facts :
    markedConsole.nesting < markedConsole.world.config.maxExpressionDepth ∧
      markedConsole.world.findObject? "Mark" = some 3 ∧
      markedConsole.world.getField? 3 "a" none = some (.int 1) ∧
      ((markedConsole.world.registry.get? 3).map fun object => (object.slot? "a" none).isNone) =
        some true ∧
      ((markedConsole.world.registry.get? 3).map fun object => object.info.name) =
        (markedConsole.world.classInfo? "SimDataBlock").map ClassInfo.name ∧
      (markedConsole.world.classInfo? "SimDataBlock").any ClassInfo.isDatablock = true := by
  decide +kernel

/-- The declaration leaves the dynamic field of the datablock, which a new one does not have. -/
theorem redeclared_mark :
    ∃ existing updated fresh after, markedConsole.world.registry.get? 3 = some existing ∧
      run 42 (.declare bareDeclaration) markedConsole =
        .ok (some 3) { markedConsole with world := after } ∧
      after.registry.get? 3 = some updated ∧ updated.id = existing.id ∧
      updated.name = existing.name ∧ existing.Replaced updated fresh ∧
      ∃ name index, updated.getField name index ≠ fresh.getField name index := by
  obtain ⟨room, leads, marked, unselected, same, datablock⟩ := markedConsole_facts
  obtain ⟨info, found, datablock⟩ := (Option.any_eq_true _ _).mp datablock
  obtain ⟨existing, live, one⟩ := Option.map_eq_some_iff.mp marked
  rw [live, found, Option.map_some, Option.map_some, Option.some.injEq] at same
  rw [live, Option.map_some, Option.some.injEq, Option.isNone_iff_eq_none] at unselected
  have made := drafted_bareDeclaration room found datablock 39
  have fair : (HostStep.ask (.evaluate markedSource)).Fair
      (PersistentField.Declared fun _ => True) := trivial
  have hosting : Hosting (fun _ => True) markedConsole := by
    unfold markedConsole
    exact .take (.new {} 0) fair 40
  have redefines : redefined? markedConsole.world true "Mark" info = some 3 := by
    have named : (true && !"Mark".isEmpty) = true := by decide
    unfold redefined?
    rw [if_pos named, leads]
    simp only [Option.filter_some, live, Option.any_some, same, decide_true, ↓reduceIte]
  have ofClass : existing.info = info := by
    have known := markedConsole_session.labelled.classed 3 existing live
    have fits : Draft.Fits True markedConsole.world (.ofClass info) :=
      .ofClass markedConsole_session.sane found
    rw [same] at known
    exact Option.some.inj (known.symm.trans (fits.known trivial))
  have passes : Passes 40 (fun ev => take ev (.ask (.evaluate markedSource))) markedConsole
      markedConsole := .start _ _ _
  obtain ⟨updated, after, ⟨persistent, dynamic, kept⟩, now, _, _, ran, reading⟩ :=
    redeclared hosting fair passes made redefines live ofClass
  obtain ⟨fresh, _, replaced, reads⟩ := reading markedConsole.world ""
  refine ⟨existing, updated, fresh, after, live, ran, now, kept ▸ rfl, kept ▸ rfl, replaced, ?_⟩
  by_contra alike
  have agree := reads.mp fun name index _ => not_not.mp fun differ => alike ⟨name, index, differ⟩
  rcases agree with made | empty
  · exact nomatch made
  · exact nomatch one.symm.trans (empty "a" none unselected)

/-- What a declaration of a datablock is after the number of the datablock, and how a field of it is
read then. -/
private def reading : EStateM.Result Abort Console (Option Nat) → Option (Nat × Option Value)
  | .ok (some id) final => some (id, final.world.getField? id "a" none)
  | _ => none

/-- The declaration leaves the dynamic field of the datablock, but a new datablock that it declares
has none. -/
theorem redeclared_keeps :
    ∃ final fresh : Console,
      run 40 (.declare bareDeclaration) markedConsole = .ok (some 3) final ∧
      run 40 (.declare bareDeclaration) (.new {} 0) = .ok (some 3) fresh ∧
      final.world.getField? 3 "a" none = some (.int 1) ∧
      fresh.world.getField? 3 "a" none = some .empty := by
  have reads : reading (run 40 (.declare bareDeclaration) markedConsole) = some (3, some (.int 1)) ∧
      reading (run 40 (.declare bareDeclaration) (.new {} 0)) = some (3, some .empty) := by
    decide +kernel
  have ended {result : EStateM.Result Abort Console (Option Nat)} {id : Nat} {value : Option Value}
      (reads : reading result = some (id, value)) : ∃ final, result = .ok (some id) final ∧
        final.world.getField? id "a" none = value := by
    cases result with
    | error abort final => exact nomatch reads
    | ok declared final =>
        cases declared with
        | none => exact nomatch reads
        | some number =>
            obtain ⟨rfl, rfl⟩ := Prod.mk.inj (Option.some.inj reads)
            exact ⟨final, rfl, rfl⟩
  obtain ⟨final, ran, kept⟩ := ended reads.1
  obtain ⟨fresh, ranNew, empty⟩ := ended reads.2
  exact ⟨final, fresh, ran, ranNew, kept, empty⟩

end Kept

end Eval

end ScriptConsole

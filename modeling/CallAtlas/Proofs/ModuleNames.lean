import CallAtlas.Proofs.CompleteReading

/-!
# Names of modules

A module whose contents lie in another file is never called `mod`: this is a reserved word, and the
grammar takes no reserved word but `try` for the name of a module. It matters because a file `mod.rs`
stands for the directory that it lies in. A module of that name would have its file in the place of
another one.

What a parser gives is told by the parsers that it is made of, without a look at what it reads.

## Main definitions

* `Parser.Gives` — all that a parser gives has a property.
* `Item.DeclaresNoMod` — no file is declared in an item for a module `mod`.

## Main results

* `SourceFile.name_ne_mod_of_parse` — nor is one in a text.
-/

namespace CallAtlas

namespace Parser

/-- All that a parser gives has a property. -/
def Gives {α : Type} (p : Parser α) (P : α → Prop) : Prop :=
  ∀ stop s a s', p stop s = .ok (a, s') → P a

theorem run_ahead_bind {α : Type} (f : Tokens → Parser α) (stop : Place) (s : Stream) :
    (ahead >>= f) stop s = f s.rest stop s :=
  rfl

namespace Gives

variable {α β : Type} {P : α → Prop} {Q : β → Prop} {p q : Parser α} {f : α → Parser β} {a : α}

theorem pure (h : P a) : Gives (Pure.pure a) P := by
  intro stop s b s' hrun
  cases hrun
  exact h

theorem mono {R : α → Prop} (hp : p.Gives P) (h : ∀ a, P a → R a) : p.Gives R :=
  fun stop s a s' hrun => h a (hp stop s a s' hrun)

theorem bind (hp : p.Gives P) (hf : ∀ a, P a → (f a).Gives Q) : (p >>= f).Gives Q := by
  intro stop s b s' hrun
  change (p stop s >>= fun x => f x.1 stop x.2) = .ok (b, s') at hrun
  cases hfirst : p stop s with
  | error place =>
    rw [hfirst] at hrun
    cases hrun
  | ok x =>
    rw [hfirst] at hrun
    exact hf x.1 (hp stop s x.1 x.2 hfirst) stop x.2 b s' hrun

/-- What a parser gives at its end does not depend on what it gives before. -/
theorem after (hf : ∀ a, (f a).Gives Q) : (p >>= f).Gives Q :=
  bind (P := fun _ => True) (fun _ _ _ _ _ => trivial) fun a _ => hf a

theorem throw (place : Place) : Gives (MonadExcept.throw place : Parser α) P := by
  intro stop s b s' hrun
  cases hrun

theorem fail : Gives (Parser.fail : Parser α) P :=
  after throw

theorem ite {c : Prop} [Decidable c] (hp : p.Gives P) (hq : q.Gives P) :
    (if c then p else q).Gives P := by
  split
  · exact hp
  · exact hq

theorem inside {inner : Tokens} {close : Place} (hp : p.Gives P) : (inside inner close p).Gives P :=
  after fun _ => after fun _ => bind (fun _ s a s' => hp close s a s') fun _ h =>
    after fun _ => after fun _ => pure h

theorem group {d : Delimiter} (hp : p.Gives P) : (group d p).Gives P := by
  refine after fun ts => ?_
  split
  · exact ite (after fun _ => inside hp) fail
  · exact fail

theorem runAll {trees : Tokens} {stop : Place} (hp : p.Gives P)
    (h : runAll p trees stop = .ok a) : P a := by
  unfold Parser.runAll at h
  cases hrun : p stop ⟨trees, none⟩ with
  | error place =>
    rw [hrun] at h
    cases h
  | ok x =>
    rw [hrun] at h
    simp only [Bind.bind, Except.bind] at h
    split at h
    · cases h
    · cases h
      exact hp stop _ x.1 x.2 hrun

/-! ### Loops -/

theorem iterateUpTo {step : α → Parser (Option α)}
    (hstep : ∀ a, P a → (step a).Gives fun next => ∀ b ∈ next, P b) (n : Nat) :
    ∀ a, P a → (iterateUpTo step n a).Gives P := by
  induction n with
  | zero => exact fun a h => pure h
  | succ n ih =>
    intro a h
    refine bind (hstep a h) fun next hnext => ?_
    cases next with
    | none => exact pure h
    | some b => exact ih b (hnext b rfl)

theorem iterate {step : α → Parser (Option α)}
    (hstep : ∀ a, P a → (step a).Gives fun next => ∀ b ∈ next, P b) (h : P a) :
    (iterate step a).Gives P :=
  after fun _ => iterateUpTo hstep _ a h

theorem collect {step : Parser (Option (α × Bool))}
    (hstep : step.Gives fun found => ∀ x ∈ found, P x.1) :
    (collect step).Gives fun all => ∀ a ∈ all, P a := by
  refine bind (P := fun x => ∀ a ∈ x.1, P a) (iterate ?_ (by simp)) fun x hx =>
    pure (by simpa using hx)
  rintro ⟨found, more⟩ hfound
  refine ite (bind hstep fun next hnext => ?_) (pure (by simp))
  cases next with
  | none => exact pure (by simp)
  | some x =>
    refine pure ?_
    rintro _ ⟨rfl⟩ a ha
    rcases List.mem_cons.mp ha with rfl | ha
    · exact hnext x rfl
    · exact hfound a ha

theorem repeatWhile {fits : Tokens → Bool} (hp : p.Gives P) :
    (repeatWhile fits p).Gives fun all => ∀ a ∈ all, P a := by
  refine collect (after fun ts => ite (bind hp fun a h => pure ?_) (pure (by simp)))
  rintro _ ⟨rfl⟩
  exact h

end Gives

end Parser

/-! ### Items -/

namespace Item

/-- Is an item a module, in braces or in another file? -/
def isModule : Item → Bool
  | .module .. | .moduleFile .. => true
  | _ => false

/-- No file is declared in an item for a module `mod`. -/
def DeclaresNoMod (item : Item) : Prop :=
  ∀ around attributes name, DeclaresFile [item] around attributes name → name.text ≠ "mod"

end Item

theorem DeclaresFile.exists_item {items : List Item} {around : InlineModules}
    {attributes : ModuleAttributes} {name : Ident} (h : DeclaresFile items around attributes name) :
    ∃ item ∈ items, DeclaresFile [item] around attributes name := by
  cases h with
  | here hmem => exact ⟨_, hmem, .here List.mem_cons_self⟩
  | inside hmem hinner => exact ⟨_, hmem, .inside List.mem_cons_self hinner⟩

namespace Item

theorem declaresNoMod_of_not_isModule {item : Item} (h : item.isModule = false) :
    item.DeclaresNoMod := by
  intro around attributes name hdeclares
  cases hdeclares with
  | here hmem | inside hmem =>
    obtain rfl := List.mem_singleton.mp hmem
    cases h

theorem declaresNoMod_moduleFile {attributes : ModuleAttributes} {name : Ident} {parts : List Expr}
    (h : name.text ≠ "mod") : (Item.moduleFile attributes name parts).DeclaresNoMod := by
  intro around attributes' name' hdeclares
  cases hdeclares with
  | here hmem =>
    cases List.mem_singleton.mp hmem
    exact h
  | inside hmem => cases List.mem_singleton.mp hmem

theorem declaresNoMod_module {attributes : ModuleAttributes} {name : Ident} {parts : List Expr}
    {items : List Item} (h : ∀ item ∈ items, item.DeclaresNoMod) :
    (Item.module attributes name parts items).DeclaresNoMod := by
  intro around attributes' name' hdeclares
  cases hdeclares with
  | here hmem => cases List.mem_singleton.mp hmem
  | inside hmem hinner =>
    cases List.mem_singleton.mp hmem
    obtain ⟨item, hitem, hdeclares⟩ := hinner.exists_item
    exact h item hitem _ _ _ hdeclares

end Item

namespace Production

open CallAtlas.Parser

variable {g : Grammar} {attributes : List Attribute}

theorem gives_failAt {α : Type} {P : α → Prop} (ts : Tokens) : (failAt ts : Parser α).Gives P := by
  cases ts with
  | nil => exact .after .throw
  | cons t rest => exact .throw t.place

/-! ### Items that are no modules -/

/-- A parser gives no modules. -/
abbrev GivesNoModule (p : Parser Item) : Prop :=
  p.Gives fun item => item.isModule = false

theorem givesNoModule_functionItem : GivesNoModule (functionItem g attributes) :=
  .after fun _ => .after fun _ => .after fun _ => .ite (.pure rfl) (.after fun _ => .pure rfl)

theorem givesNoModule_crateItem : GivesNoModule (crateItem attributes) :=
  .after fun _ => .after fun _ => .after fun _ => .after fun _ => .ite
    (.after fun _ => .after fun _ => .pure rfl) (.after fun _ => .after fun _ => .pure rfl)

theorem givesNoModule_foreignItem : GivesNoModule (foreignItem g attributes) :=
  .after fun _ => .after fun _ => .ite (.after fun _ => .after fun _ => .after fun _ => .pure rfl)
    (.after fun _ => .after fun _ => .pure rfl)

theorem givesNoModule_useItem : GivesNoModule (useItem g attributes) := by
  refine .after fun _ => .after fun _ => .after fun tree => .after fun _ => ?_
  cases tree <;> exact .pure rfl

theorem givesNoModule_staticItem : GivesNoModule (staticItem g attributes) :=
  .after fun _ => .after fun _ => .after fun _ => .ite
    (.after fun _ => .after fun _ => .pure rfl)
    (.after fun _ => .after fun _ => .after fun _ => .ite (.pure rfl)
      (.after fun _ => .after fun _ => .after fun _ => .pure rfl))

theorem givesNoModule_newMacroItem : GivesNoModule newMacroItem := by
  refine .after fun _ => .after fun _ => .ite (.after fun _ => .after fun _ => ?_) (.after fun _ => ?_)
  all_goals exact .ite (.after fun _ => .pure rfl) (.after fun _ => .pure rfl)

theorem givesNoModule_typeItem {rest : Parser (Ident × List Expr)} :
    GivesNoModule (typeItem attributes rest) :=
  .after fun _ => .after fun _ => .after fun _ => .pure rfl

theorem givesNoModule_traitRest {visible : Visibility} {name : Ident} {generics : List Expr} :
    GivesNoModule (traitRest g attributes visible name generics) :=
  .after fun _ => .ite (.after fun _ => .after fun _ => .after fun _ => .pure rfl)
    (.after fun _ => .after fun _ => .after fun _ => .pure rfl)

theorem givesNoModule_qualifiedTrait : GivesNoModule (qualifiedTrait g attributes) :=
  .after fun _ => .after fun _ => .after fun _ => .after fun _ => .after fun _ => .after fun _ =>
    givesNoModule_traitRest

theorem givesNoModule_traitOrAlias {visible : Visibility} :
    GivesNoModule (traitOrAlias g attributes visible) :=
  .after fun _ => .after fun _ => .after fun _ => .ite givesNoModule_traitRest
    (.after fun _ => .after fun _ => .after fun _ => .after fun _ => .pure rfl)

theorem givesNoModule_implItem : GivesNoModule (implItem g attributes) := by
  unfold implItem
  refine .after fun visible => .after fun _ => .after fun _ => .after fun _ => .after fun _ => ?_
  extract_lets behindGenerics
  have hbehindGenerics (generics : List Expr) : GivesNoModule (behindGenerics generics) := by
    refine .after fun ts => ?_
    extract_lets isConst behindConst
    have hbehindConst (u : Unit) : GivesNoModule (behindConst u) := by
      refine .after fun place => .after fun _ => .after fun _ => ?_
      extract_lets isNegative behindMark
      have hbehindMark (u : Unit) : GivesNoModule (behindMark u) := by
        refine .after fun first => .after fun _ => ?_
        extract_lets ofTrait behindTarget
        have hbehindTarget (target : Option TypeSyntax) : GivesNoModule (behindTarget target) := by
          refine .after fun _ => .after fun _ => .ite (.pure rfl) ?_
          cases target <;> exact .pure rfl
        exact .ite (.after hbehindTarget) (.ite (.after hbehindTarget) (.after hbehindTarget))
      exact .ite (.after hbehindMark) (hbehindMark ())
    exact .ite (.after fun _ => .after hbehindConst) (hbehindConst ())
  exact .ite (.after hbehindGenerics) (.after hbehindGenerics)

/-! ### Modules -/

theorem gives_name : name.Gives fun found => found.text ∉ reservedWords :=
  fun _ _ found _ _ => by simpa using found.unreserved

theorem anyWord_ok {stop : Place} {s s' : Stream} {found : Ident}
    (h : anyWord stop s = .ok (found, s')) : s.rest.word? = some found := by
  rw [anyWord, run_ahead_bind] at h
  cases hword : s.rest.word? with
  | none =>
    rw [hword] at h
    cases Gives.fail (P := fun _ => False) stop s _ _ h
  | some word =>
    rw [hword] at h
    cases h
    rfl

theorem gives_nameOr (texts : List String) :
    (nameOr texts).Gives fun found => found.text ∈ texts ∨ found.text ∉ reservedWords := by
  intro stop s found s' h
  rw [nameOr, run_ahead_bind] at h
  split at h
  · next hone =>
    obtain ⟨text, htext, hword⟩ := List.any_eq_true.mp hone
    rw [Tokens.word, anyWord_ok h, Option.any_some, beq_iff_eq] at hword
    exact .inl (hword ▸ htext)
  · have hgives : Gives (do let found ← name; return found.toIdent) fun found =>
        found.text ∉ reservedWords := gives_name.bind fun _ hname => .pure hname
    exact .inr (hgives stop s found s' h)

theorem gives_moduleItem (hg : g.item.Gives Item.DeclaresNoMod) :
    (moduleItem g attributes).Gives Item.DeclaresNoMod := by
  refine .after fun _ => .after fun _ => .after fun _ => ?_
  refine .bind (gives_nameOr ["try"]) fun name hname => ?_
  have hne : name.text ≠ "mod" := by
    intro heq
    rw [heq] at hname
    revert hname
    decide
  refine .after fun _ => .ite (.group ?_) (.after fun _ => .pure (Item.declaresNoMod_moduleFile hne))
  exact .after fun _ => .bind (.repeatWhile hg) fun items hitems =>
    .pure (Item.declaresNoMod_module hitems)

theorem gives_item (hg : g.item.Gives Item.DeclaresNoMod) :
    (item g attributes).Gives Item.DeclaresNoMod := by
  have of {p : Parser Item} (hp : GivesNoModule p) : p.Gives Item.DeclaresNoMod :=
    hp.mono fun _ => Item.declaresNoMod_of_not_isModule
  refine .after fun visible => ?_
  refine .ite (of givesNoModule_functionItem) ?_
  refine .ite ?_ ?_
  · refine .ite (.after fun _ => of givesNoModule_crateItem) ?_
    refine .ite (of givesNoModule_foreignItem) ?_
    exact .ite (.ite (of givesNoModule_foreignItem) (gives_failAt _)) (gives_failAt _)
  refine .ite (.after fun _ => of givesNoModule_useItem) ?_
  refine .ite (.after fun _ => .after fun _ => of givesNoModule_staticItem) ?_
  refine .ite (.after fun _ => .after fun _ => .after fun _ => of (.pure rfl)) ?_
  refine .ite ?_ ?_
  · refine .ite (of givesNoModule_qualifiedTrait) ?_
    refine .ite (of givesNoModule_implItem) ?_
    refine .ite (of givesNoModule_foreignItem) ?_
    exact .ite (gives_moduleItem hg) (gives_failAt _)
  refine .ite (gives_moduleItem hg) ?_
  refine .ite ?_ ?_
  · refine .after fun _ => .after fun declared => of ?_
    split <;> exact .pure rfl
  refine .ite (of givesNoModule_typeItem) ?_
  refine .ite (of givesNoModule_typeItem) ?_
  refine .ite (of givesNoModule_typeItem) ?_
  refine .ite (.after fun _ => .after fun _ => of givesNoModule_traitOrAlias) ?_
  refine .ite (of givesNoModule_qualifiedTrait) ?_
  refine .ite (of givesNoModule_implItem) ?_
  refine .ite (.after fun _ => .after fun _ => of givesNoModule_newMacroItem) ?_
  exact .ite (.after fun _ => of (.pure rfl)) (gives_failAt _)

end Production

theorem Grammar.gives_item (depth : Nat) : (ofDepth depth).item.Gives Item.DeclaresNoMod := by
  induction depth with
  | zero => exact .fail
  | succ depth ih => exact .after fun _ => Production.gives_item ih

/-- **No file is declared for a module `mod`**, at the top level of a text or in modules in braces. -/
theorem SourceFile.name_ne_mod_of_parse {text : String} {file : SourceFile} {around : InlineModules}
    {attributes : ModuleAttributes} {name : Ident} (h : parse text = .ok file)
    (hdeclares : DeclaresFile file.items around attributes name) : name.text ≠ "mod" := by
  have hcontent (g : Grammar) (hg : g.item.Gives Item.DeclaresNoMod) :
      (content g).Gives fun file => ∀ item ∈ file.items, item.DeclaresNoMod :=
    .after fun _ => .bind (.repeatWhile hg) fun _ hitems => .pure hitems
  unfold parse at h
  cases htrees : Lexer.trees .start (skipInterpreter (skipByteOrderMark text.toList)) with
  | error place =>
    rw [htrees] at h
    cases h
  | ok trees =>
    rw [htrees] at h
    have hitems := (hcontent _ (Grammar.gives_item _)).runAll h
    obtain ⟨item, hitem, hdeclares⟩ := hdeclares.exists_item
    exact hitems item hitem around attributes name hdeclares

end CallAtlas

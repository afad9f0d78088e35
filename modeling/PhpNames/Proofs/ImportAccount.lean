import PhpNames.Proofs.ImportCalls

/-!
What the result of an import says about its edits.

An import succeeds exactly if it handed over a batch and none was refused. If the sorting at its end
is refused, what stays is the import alone; in every other case of failure nothing has changed.
-/

namespace PhpNames

open Commands

inductive ImportTarget where
  | cursor (position : Position)
  | className (name : Text)
  deriving DecidableEq, Repr

def Commands.importTarget {m : Type → Type} [Monad m] [MonadEditor m] (uri : Text) :
    ImportTarget → ExceptT ResolveError m Outcome
  | .cursor position => importAt uri position
  | .className name => importName uri none name

namespace Workbench

open FaithfulEditor Job

variable {bench after : Workbench} {uri : Text} {selection : Option Range} {name : Text}
  {result : Except ResolveError Outcome} {made : List Call}

/-- A batch that imports a class into a document, perhaps under a name that was typed. -/
def IsImport (answers : List (Option Text)) (document : Document) (batch : List Edit) : Prop :=
  ∃ selection name replaceSelection block,
    Block.scan document.lines (some name) = .ok block ∧
      Planned (some · ∈ answers) selection name replaceSelection block batch

inductive ImportEnd (bench : Workbench) (uri : Text) :
    Except ResolveError Outcome → List Call → Prop
  | silent {result : Except ResolveError Outcome} (notDone : result ≠ .ok .done)
      (notRejected : result ≠ .error .editRejected) : ImportEnd bench uri result []
  | handed {document : Document} {batch : List Edit} {result : Except ResolveError Outcome}
      {made : List Call} (opened : bench.document? uri = some document)
      (imports : IsImport bench.answers document batch)
      (ended : BatchEnd bench uri document batch result made) :
      ImportEnd bench uri result made

theorem import_end_of_name_end (result : Except ResolveError Outcome) (made : List Call)
    (ended : NameEnd (faithful uri) bench selection name result made) :
    ImportEnd bench uri result made := by
  cases ended with
  | unknown failed => exact .silent (by simp) (by simp)
  | unpicked declined => exact .silent (by simp) (by simp)
  | resolved found ended =>
      cases ended with
      | unopened unopened => exact .silent (by simp) (by simp)
      | imported opened scanned => exact .silent (by simp) (by simp)
      | declined opened scanned taken => exact .silent (by simp) (by simp)
      | handed opened scanned planned ended =>
          have imports := planned.mono fun _ => mem_answers_of_types
          exact .handed opened ⟨_, _, _, _, scanned, imports⟩ ended

theorem concludes_import_target (bench : Workbench) (uri : Text) (target : ImportTarget) :
    Concludes uri (fun _ => True) (importTarget uri target) bench (ImportEnd bench uri) := by
  cases target with
  | className name =>
      exact concludes_mono (concludes_import_name (faithful uri) trivial bench none)
        import_end_of_name_end
  | cursor position =>
      have nowhere : ImportEnd bench uri (.error .noSelection) [] := .silent (by simp) (by simp)
      exact concludes_import_at (faithful uri) bench position nowhere
        fun _ _ _ _ => import_end_of_name_end

/-- What the result of an import says about the calls that it made and the documents it left. -/
structure Account (bench : Workbench) (uri : Text) (made : List Call)
    (result : Except ResolveError Outcome) (after : Workbench) : Prop where
  recorded : after.calls = bench.calls ++ made
  carriedOut : after.documents = made.foldl Call.carryOut bench.documents
  sameDocument : ∀ call ∈ made, call.uri = uri
  atMostTwo : made.length ≤ 2
  done_iff : result = .ok .done ↔ made ≠ [] ∧ ∀ call ∈ made, call.isAccepted = true
  rejected_iff : result = .error .editRejected ↔ ∃ last ∈ made.getLast?, last.isAccepted = false
  otherwise : result ≠ .ok .done → result ≠ .error .editRejected →
    made = [] ∧ after.documents = bench.documents
  rejected : result = .error .editRejected →
    (∃ batch, made = [⟨uri, batch, false⟩] ∧ after.documents = bench.documents) ∨
      ∃ document batch sorting, bench.document? uri = some document ∧
        IsImport bench.answers document batch ∧
        (document.replaceAll batch).followUp? bench.settings = some sorting ∧
        made = [⟨uri, batch, true⟩, ⟨uri, sorting, false⟩] ∧
        after.documents = (bench.edit uri batch).documents

theorem account_silent (makes : bench.Makes [] after) (notDone : result ≠ .ok .done)
    (notRejected : result ≠ .error .editRejected) : bench.Account uri [] result after where
  recorded := makes.calls
  carriedOut := makes.documents
  sameDocument := by simp
  atMostTwo := by simp
  done_iff := by simp [notDone]
  rejected_iff := by simp [notRejected]
  otherwise _ _ := ⟨rfl, makes.documents⟩
  rejected rejected := absurd rejected notRejected

theorem account_refused {batch : List Edit} (makes : bench.Makes [⟨uri, batch, false⟩] after) :
    bench.Account uri [⟨uri, batch, false⟩] (.error .editRejected) after where
  recorded := makes.calls
  carriedOut := makes.documents
  sameDocument := by simp
  atMostTwo := by simp
  done_iff := by simp
  rejected_iff := by simp
  otherwise _ notRejected := absurd rfl notRejected
  rejected _ := .inl ⟨batch, rfl, makes.documents⟩

theorem account_done (makes : bench.Makes made after) (some : made ≠ []) (few : made.length ≤ 2)
    (accepted : ∀ call ∈ made, call.uri = uri ∧ call.isAccepted = true) :
    bench.Account uri made (.ok .done) after where
  recorded := makes.calls
  carriedOut := makes.documents
  sameDocument call member := (accepted call member).1
  atMostTwo := few
  done_iff := iff_of_true rfl ⟨some, fun call member => (accepted call member).2⟩
  rejected_iff := by
    apply iff_of_false nofun
    rintro ⟨last, isLast, refused⟩
    rw [(accepted last (List.mem_of_getLast? isLast)).2] at refused
    cases refused
  otherwise notDone _ := absurd rfl notDone
  rejected := nofun

theorem account_unsorted {document : Document} {batch sorting : List Edit}
    (makes : bench.Makes [⟨uri, batch, true⟩, ⟨uri, sorting, false⟩] after)
    (opened : bench.document? uri = some document) (imports : IsImport bench.answers document batch)
    (due : (document.replaceAll batch).followUp? bench.settings = some sorting) :
    bench.Account uri [⟨uri, batch, true⟩, ⟨uri, sorting, false⟩] (.error .editRejected) after where
  recorded := makes.calls
  carriedOut := makes.documents
  sameDocument := by simp
  atMostTwo := by simp
  done_iff := by simp
  rejected_iff := by simp
  otherwise _ notRejected := absurd rfl notRejected
  rejected _ := by
    -- the refused batch changes nothing, so what is left is the import
    have importOnly : after.documents = (bench.edit uri batch).documents := by
      rw [edit_documents]
      exact makes.documents
    exact .inr ⟨document, batch, sorting, opened, imports, due, rfl, importOnly⟩

theorem ImportEnd.account (ended : ImportEnd bench uri result made)
    (makes : bench.Makes made after) : bench.Account uri made result after := by
  cases ended with
  | silent notDone notRejected => exact account_silent makes notDone notRejected
  | handed opened imports ended =>
      cases ended with
      | refused => exact account_refused makes
      | taken closing =>
          rcases (hands_of_follows closing).succeeds_or_refused with
            ⟨rfl, few, closes⟩ | ⟨rfl, sorting, due, rfl⟩
          · exact account_done makes (List.cons_ne_nil _ _) (Nat.succ_le_succ few)
              (List.forall_mem_cons.mpr ⟨⟨rfl, rfl⟩, closes⟩)
          · exact account_unsorted makes opened imports due

theorem import_target_accounts_for_calls (bench : Workbench) (uri : Text) (target : ImportTarget) :
    ∃ made, bench.Account uri made (ends (importTarget uri target) bench).1
      (ends (importTarget uri target) bench).2 := by
  obtain ⟨made, trace, ended⟩ := concludes_import_target bench uri target
  exact ⟨made, ended.account (makes_of_trace trace)⟩

end Workbench
end PhpNames

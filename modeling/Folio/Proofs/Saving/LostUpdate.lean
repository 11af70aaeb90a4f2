/-
# Lost updates

A save that is done marks the model as persisted, whatever the model holds by then.  So of a clean
model with nothing in flight it may not be said that the store has what it holds: an edit made
during a save is lost when the save ends, and a save that is overtaken by a reload puts back the
content that the reload has dropped (`Exchange.lost_updates`).

What can be said is in `Exchange.inSync_iff_same_version`: a document is in sync just if the version
that the model holds has the value of the version that the store keeps.  A clean model is, in all
runs in which nothing is edited while a save is in flight, and no save and reload are in flight at
the same time.
-/
import Folio.Proofs.Saving.Calm

namespace Folio

namespace Exchange

/-- **When a document is in sync.**  From a document that is in sync, every run comes to where it is
in sync just if the model and the store have versions of one value.  After a calm run they have, if
the model is clean. -/
theorem inSync_iff_same_version {session : Session} {store : MemoryStore} {document : ContextId}
    (made : document < session.contexts.length)
    (inSync : (start session store document).InSync) (moves : List Move) :
    let x := (start session store document).run moves
    (x.InSync ↔ x.values[x.held]? = x.values[x.kept]?) ∧
      ((start session store document).isCalmRun moves = true → x.clean = true → x.InSync) := by
  intro x
  have versioned := Versioned.start made inSync
  have same : x.InSync ↔ x.values[x.held]? = x.values[x.kept]? := (versioned.run moves).inSync_iff
  refine ⟨same, fun calm clean => same.mpr ?_⟩
  have settled := (Settled.start session store document).run versioned nofun moves calm
  rw [settled.clean clean]

/-! ## Runs of one document -/

/-- A text that is open and in sync. -/
def sampleContext : Context where
  path := "a"
  modelFactory := "text"
  contentType := "file"
  model := ⟨.text "one", false, false⟩
  state := .ready

/-- A session with one text, -/
def sampleSession : Session := { Session.create {} with contexts := [sampleContext] }

/-- and a store that has it. -/
def sampleStore : MemoryStore := (({} : MemoryStore).write "a" (.text "one")).1

/-- The text is edited and saved. -/
def editsAndSaves : List Move :=
  [.edit (.text "two"), .save, .go 0 .obliging, .carryOut 0, .go 0 .obliging]

/-- The text is edited once more while it is saved. -/
def editsWhileSaving : List Move :=
  [.edit (.text "two"), .save, .go 0 .obliging, .edit (.text "three"), .carryOut 0,
    .go 0 .obliging]

/-- The text is reloaded while it is saved, and the store carries out the save last. -/
def revertsWhileSaving : List Move :=
  [.edit (.text "two"), .save, .go 0 .obliging, .revert, .go 1 .obliging, .carryOut 1, .carryOut 0,
    .go 0 .obliging, .go 0 .obliging]

theorem inSync_iff_same_version_editsAndSaves :
    0 < sampleSession.contexts.length ∧ (start sampleSession sampleStore 0).InSync ∧
      (start sampleSession sampleStore 0).isCalmRun editsAndSaves = true ∧
      ((start sampleSession sampleStore 0).run editsAndSaves).value = .text "two" ∧
      ((start sampleSession sampleStore 0).run editsAndSaves).InSync := by
  have made : 0 < sampleSession.contexts.length := by decide
  have inSync : (start sampleSession sampleStore 0).InSync := by decide +kernel
  have calm : (start sampleSession sampleStore 0).isCalmRun editsAndSaves = true := by
    decide +kernel
  have clean : ((start sampleSession sampleStore 0).run editsAndSaves).clean = true := by
    decide +kernel
  refine ⟨made, inSync, calm, by decide +kernel, ?_⟩
  exact (inSync_iff_same_version made inSync editsAndSaves).2 calm clean

/-- **Lost updates**: nothing is in flight and the model is clean, but the store has another text.
-/
theorem lost_updates :
    (((start sampleSession sampleStore 0).run editsWhileSaving).quiet = true ∧
      ((start sampleSession sampleStore 0).run editsWhileSaving).clean = true ∧
      ¬ ((start sampleSession sampleStore 0).run editsWhileSaving).InSync ∧
      ((start sampleSession sampleStore 0).run editsWhileSaving).value = .text "three" ∧
      ((start sampleSession sampleStore 0).run editsWhileSaving).fresh? = some (.text "two")) ∧
    (((start sampleSession sampleStore 0).run revertsWhileSaving).quiet = true ∧
      ((start sampleSession sampleStore 0).run revertsWhileSaving).clean = true ∧
      ¬ ((start sampleSession sampleStore 0).run revertsWhileSaving).InSync ∧
      ((start sampleSession sampleStore 0).run revertsWhileSaving).value = .text "one" ∧
      ((start sampleSession sampleStore 0).run revertsWhileSaving).fresh? =
        some (.text "two")) := by
  decide +kernel

end Exchange

end Folio

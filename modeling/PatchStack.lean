import PatchStack.Argument
import PatchStack.Main
import PatchStack.Name
import PatchStack.Proofs.LocatorGrammar
import PatchStack.Proofs.StackOrder
import PatchStack.Proofs.Positions
import PatchStack.Proofs.Selection
import PatchStack.Proofs.OwnName
import PatchStack.Proofs.PatchRevisions
import PatchStack.Proofs.NameReadings
import PatchStack.Proofs.Spelling
import PatchStack.Proofs.Failures
import PatchStack.Proofs.GitFallback
import PatchStack.Proofs.FirstParents
import PatchStack.Proofs.Questions
import PatchStack.Proofs.Sessions
import PatchStack.Proofs.RememberedStacks
import PatchStack.Proofs.Resolutions
import PatchStack.Proofs.RememberedCommits
import PatchStack.Proofs.StackReading
import PatchStack.Proofs.Regrouping
import PatchStack.Proofs.CommandWords
import PatchStack.Proofs.Sections
import PatchStack.Proofs.ReportedErrors
import PatchStack.Proofs.Endings
import PatchStack.Proofs.WordsFirst
import PatchStack.Proofs.Stops
import PatchStack.Proofs.Addresses
import PatchStack.Proofs.MovedPatches
import PatchStack.Proofs.CommitPrefixes
import PatchStack.Proofs.SettledLocators
import PatchStack.Proofs.ConstraintFilters
import PatchStack.Proofs.ConstraintOption
import PatchStack.Proofs.AppliedBoundary
import PatchStack.Proofs.ArgumentOrder
import PatchStack.Proofs.ArgumentReading
import PatchStack.Proofs.UnbrokenSelections
import PatchStack.Proofs.RevisionGrammar
import PatchStack.Proofs.StackAnswers
import PatchStack.Proofs.RecordedRequests
import PatchStack.Proofs.NamedRevisions
import PatchStack.Proofs.RangeEnds
import PatchStack.Proofs.ChainAtoms
import PatchStack.Proofs.ChainEnds
import PatchStack.Proofs.PrefixScans
import PatchStack.Proofs.NameAgreement

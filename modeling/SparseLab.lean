import SparseLab.Training.StageProtocolRuns
import SparseLab.Data.TokenMixtureRecovery
import SparseLab.Training.BudgetAccounting
import SparseLab.Workers.Evidence
import SparseLab.Workers.SealedInventory
import SparseLab.Checkpoints.Lineage
import SparseLab.Workers.DeliveryRuns
import SparseLab.Workers.LaunchReplay
import SparseLab.Campaign.Progress
import SparseLab.Corpus.FreezeRuns
import SparseLab.Data.ChatAgreement
import SparseLab.Corpus.TextPolicies
import SparseLab.Workers.ArtifactTransfer
import SparseLab.Workers.Leases
import SparseLab.Corpus.FractionFeasibility
import SparseLab.Corpus.NearDuplicatePairs
import SparseLab.Corpus.CleaningProvenance
import SparseLab.Data.CleanupDeletion
import SparseLab.Corpus.ShardPreparation
import SparseLab.Corpus.SplitJoinAgreement
import SparseLab.Corpus.AdmissionSafety
import SparseLab.Corpus.ExternalSort
import SparseLab.Corpus.DenominatorCounts
import SparseLab.Experiments.ComparisonExactness
import SparseLab.Experiments.AxisCells
import SparseLab.Checkpoints.RetentionLimits
import SparseLab.Engram.RecordTimes
import SparseLab.Data.OwnedCopySafety
import SparseLab.Data.ConversationMasks
import SparseLab.Data.AcquisitionSafety
import SparseLab.Corpus.OrderedFetchSafety
import SparseLab.Training.StorageReceipts
import SparseLab.Training.CheckpointCadence
import SparseLab.Training.StoryUpdates
import SparseLab.Training.Exposure
import SparseLab.Campaign.PlanValidation
import SparseLab.Data.InterruptedCollection
import SparseLab.Engram.AddressHash

import BulkSync.Folder
import BulkSync.Main
import BulkSync.PingPong
import BulkSync.RunLog
import BulkSync.Proofs.Performance
import BulkSync.Proofs.HaltBits
import BulkSync.Proofs.Slots
import BulkSync.Proofs.Gathering
import BulkSync.Proofs.Cells
import BulkSync.Proofs.StoreAgreement
import BulkSync.Proofs.StoreWrites
import BulkSync.Proofs.Journal
import BulkSync.Proofs.Served
import BulkSync.Proofs.Visits
import BulkSync.Proofs.VisitEffects
import BulkSync.Proofs.Interleaving
import BulkSync.Proofs.Rounds
import BulkSync.Proofs.Halvings
import BulkSync.Proofs.Tiling
import BulkSync.Proofs.Passages
import BulkSync.Proofs.Tallies
import BulkSync.Proofs.Chronicle
import BulkSync.Proofs.Supersteps
import BulkSync.Proofs.Boundaries
import BulkSync.Proofs.Histories
import BulkSync.Proofs.Activations
import BulkSync.Proofs.Counters
import BulkSync.Proofs.Idleness
import BulkSync.Proofs.Convergence
import BulkSync.Proofs.Combining
import BulkSync.Proofs.Matching
import BulkSync.Proofs.MatchingVisits
import BulkSync.Proofs.MatchingRounds
import BulkSync.Proofs.TwinRounds
import BulkSync.Proofs.TwinTotals
import BulkSync.Proofs.TwinBarriers
import BulkSync.Proofs.Independence
import BulkSync.Proofs.ComponentLabels
import BulkSync.Proofs.Adjacencies
import BulkSync.Proofs.Merging
import BulkSync.Proofs.MergingRounds
import BulkSync.Proofs.Refinement
import BulkSync.Proofs.OneTask
import BulkSync.Proofs.OrderedTotals
import BulkSync.Proofs.Regrouping
import BulkSync.Proofs.RegroupedRounds
import BulkSync.Proofs.SingleWorker
import BulkSync.Proofs.Walks
import BulkSync.Proofs.Relaxation
import BulkSync.Proofs.RelaxedVisits
import BulkSync.Proofs.RelaxedRounds
import BulkSync.Proofs.RelaxedSteps
import BulkSync.Proofs.RelaxedRuns
import BulkSync.Proofs.RelaxedEngines
import BulkSync.Proofs.WeakComponents
import BulkSync.Proofs.WholeDoubles
import BulkSync.Proofs.Distances
import BulkSync.Proofs.Caps
import BulkSync.Proofs.Bookkeeping
import BulkSync.Proofs.DoubleBuffers
import BulkSync.Proofs.CombinedMail
import BulkSync.Proofs.Coverage
import BulkSync.Proofs.Weights
import BulkSync.Proofs.Divisions
import BulkSync.Proofs.GreedyCuts
import BulkSync.Proofs.WeightedRanges
import BulkSync.Proofs.EvenShares
import BulkSync.Proofs.HalvingDepths
import BulkSync.Proofs.StorePlaces
import BulkSync.Proofs.StoreHistories
import BulkSync.Proofs.EdgeGroups
import BulkSync.Proofs.Contributions
import BulkSync.Proofs.HaltHistories
import BulkSync.Proofs.Visibility
import BulkSync.Proofs.Confinement
import BulkSync.Proofs.Skipping
import BulkSync.Proofs.Numerals
import BulkSync.Proofs.TextLines
import BulkSync.Proofs.EdgeFiles
import BulkSync.Proofs.Loading
import BulkSync.Proofs.LargeIds
import BulkSync.Proofs.Closing
import BulkSync.Proofs.NodeOrder
import BulkSync.Proofs.Ranking
import BulkSync.Proofs.PowerIteration
import BulkSync.Proofs.RankVisits
import BulkSync.Proofs.RankSteps
import BulkSync.Proofs.RankIteration
import BulkSync.Proofs.RankRuns
import BulkSync.Proofs.StoreChecks
import BulkSync.Proofs.EdgeGrammar
import BulkSync.Proofs.FailedSends
import BulkSync.Proofs.JsonTexts
import BulkSync.Proofs.ConfigTexts
import BulkSync.Proofs.Symmetrisation
import BulkSync.Proofs.WeakOrders
import BulkSync.Proofs.Unbeaten
import BulkSync.Proofs.LabelCounts
import BulkSync.Proofs.StoreSizes
import BulkSync.Proofs.ComponentTable

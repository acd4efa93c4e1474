import BookAgent.Lib.Fallible
import BookAgent.Lib.Text
import BookAgent.TxVerifier.Rephrasing
import BookAgent.TxVerifier.SeedCollision
import BookAgent.TxVerifier.InspectedRoot
import BookAgent.TxVerifier.ProposalGc
import BookAgent.TxVerifier.ExpectedExercise
import BookAgent.TxVerifier.AcceptedProposal
import BookAgent.CloudAgent.SignedHash
import BookAgent.AgentLogic.GridSafety
import BookAgent.AgentLogic.OverCommitment
import BookAgent.AgentLogic.OrderCapacity
import BookAgent.AgentLogic.NetPositionSum
import BookAgent.AgentLogic.LeftReservations
import BookAgent.AgentLogic.SavedAgreements
import BookAgent.CloudAgent.SpentHoldings
import BookAgent.CloudAgent.ExclusiveReservations
import BookAgent.CloudAgent.QuoteRestart
import BookAgent.AtomicQuote.CanonicalMessage
import BookAgent.MessageSigning.PayloadBinding
import BookAgent.CloudAgent.SettleOutcomes
import BookAgent.CloudAgent.TicketPromises
import BookAgent.CloudAgent.SignedTerms
import BookAgent.CloudAgent.FillBounds
import BookAgent.CloudAgent.SplitStorms
import BookAgent.CloudAgent.SubmitterInputs
import BookAgent.CloudAgent.PaymentReservations
import BookAgent.AgentLogic.PoolImpact
import BookAgent.AgentLogic.GridConservation
import BookAgent.Lib.LargestFirst
import BookAgent.Lib.DecimalRange
import BookAgent.CloudAgent.FewestInputs
import BookAgent.CloudAgent.DisclosureSelection
import BookAgent.TxVerifier.ValueDecoding
import BookAgent.Lib.Base64
import BookAgent.Lib.SplitLines
import BookAgent.MessageSigning.PayloadLines
import BookAgent.Lib.JsonText
import BookAgent.Lib.Forest
import BookAgent.TxVerifier.NodeForest
import BookAgent.CloudAgent.RungCounts
import BookAgent.MessageSigning.FeeSchedule
import BookAgent.CloudAgent.UpdatesWorker
import BookAgent.CloudAgent.UpdateReplay
import BookAgent.CloudAgent.UpdateRuns
import BookAgent.Lib.Replay
import BookAgent.CloudAgent.AmuletFallback
import BookAgent.CloudAgent.FeeAuthorizations
import BookAgent.CloudAgent.InputPool
import BookAgent.CloudAgent.AmuletSelection
import BookAgent.CloudAgent.SplitFunding
import BookAgent.AgentLogic.EnsureReserved
import BookAgent.CloudAgent.QuoteSized
import BookAgent.CloudAgent.ImpactRecheck
import BookAgent.AgentLogic.ContractIds
import BookAgent.AgentLogic.SentCancels
import BookAgent.AgentLogic.RecordedFlows
import BookAgent.AgentLogic.CountedTrades
import BookAgent.CloudAgent.AllocateRuns
import BookAgent.Lib.CrashDisk
import BookAgent.CloudAgent.StateFile
import BookAgent.Lib.Rotation
import BookAgent.AgentLogic.GridVisit
import BookAgent.AgentLogic.GridCycle
import BookAgent.AgentLogic.GridRuns
import BookAgent.AgentLogic.ShutdownSignal
import BookAgent.AgentLogic.ConfirmPrompts
import BookAgent.AgentLogic.PartySweep
import BookAgent.CloudAgent.DvpGc
import BookAgent.CloudAgent.DvpGcRuns
import BookAgent.CloudAgent.LpStream
import BookAgent.Lib.EnvLines
import BookAgent.CloudAgent.Onboarding

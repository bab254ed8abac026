import PublicPool.Proofs.TipChange
import PublicPool.Proofs.Payout.Conservation
import PublicPool.Proofs.DatumCoinbase
import PublicPool.Proofs.Sv2.NoiseAgreement
import PublicPool.Proofs.Sv2.Handover
import PublicPool.Proofs.AnnouncedDifficulty
import PublicPool.Proofs.Sv2.DisjointWork
import PublicPool.Proofs.ShareIsolation
import PublicPool.Proofs.TemplateOrder
import PublicPool.Proofs.Sv1.PositiveCredit
import PublicPool.Proofs.Payout.LooksAlone
import PublicPool.Proofs.ClientRows
import PublicPool.Proofs.Sv2.JobLimits
import PublicPool.Proofs.Sv2.Attribution
import PublicPool.Proofs.Sv2.AnnouncedJobs
import PublicPool.Proofs.Payout.Bookkeeping
import PublicPool.Proofs.Payout.WeightBudget
import PublicPool.Proofs.Payout.RowOrder
import PublicPool.Proofs.Payout.Window
import PublicPool.Proofs.WinningHash
import PublicPool.Proofs.Sv2.DeclaredWork
import PublicPool.Proofs.DatumCoinbaser
import PublicPool.Proofs.PrefixHeight
import PublicPool.Proofs.DatumValidation
import PublicPool.Proofs.DatumSnapshots
import PublicPool.Proofs.Sv2.MaxTarget
import PublicPool.Proofs.Sv2.SubmissionAnswers
import PublicPool.Proofs.DatumMessages
import PublicPool.Proofs.DatumNonces
import PublicPool.Proofs.ClientStatistics
import PublicPool.Proofs.BlocksService
import PublicPool.Proofs.Sv1.LiveJobs
import PublicPool.Proofs.LineFraming
import PublicPool.Proofs.JobIds
import PublicPool.Proofs.Sv2.PaidSolutions
import PublicPool.Proofs.Payout.LargestRemainder
import PublicPool.Proofs.Sv2.OutputLists
import PublicPool.Proofs.Sv2.CodecBuffers
import PublicPool.Proofs.Sv2.SipHash
import PublicPool.Proofs.ChartGaps
import PublicPool.Proofs.Sv1.Backpressure
import PublicPool.Proofs.Sv1.SuggestedFloor
import PublicPool.Proofs.ProtocolDetection
import PublicPool.Proofs.Sv2.ExtendedCoinbase
import PublicPool.Proofs.Sv2.TokenExpiry
import PublicPool.Proofs.HighScore
import PublicPool.Proofs.Payout.SerialLedger

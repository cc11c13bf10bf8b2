import Astrcode.Properties.ReversePaging
import Astrcode.Properties.StaleRepair
import Astrcode.Properties.Finalization
import Astrcode.Properties.TokenAnchor
import Astrcode.Properties.PatchPaths
import Astrcode.Properties.PathRules
import Astrcode.Properties.SensitiveFiles
import Astrcode.Properties.HistoryAccess
import Astrcode.Properties.ChildResults
import Astrcode.Properties.StreamDelivery
import Astrcode.Properties.Reconnect
import Astrcode.Properties.DeliveryProgress
import Astrcode.Properties.HandshakeAgreement
import Astrcode.Properties.ForkPoint
import Astrcode.Properties.WriterAtomicity
import Astrcode.Properties.ConsumerDurability
import Astrcode.Properties.DeferredPublication
import Astrcode.Properties.LaneBatching
import Astrcode.Properties.SummaryProjection
import Astrcode.Properties.ReachableModel
import Astrcode.Properties.QueueDrain
import Astrcode.Properties.TokenEstimates
import Astrcode.Properties.RetainedBudget
import Astrcode.Properties.PatchFrame
import Astrcode.Properties.StreamedText
import Astrcode.Properties.CompactionProbe
import Astrcode.Wire.CancelledRequests
import Astrcode.Properties.PublicAddresses
import Astrcode.Properties.EditAtomicity
import Astrcode.Properties.Retries
import Astrcode.Properties.StreamDecoding
import Astrcode.Properties.RetriedEnds
import Astrcode.Properties.TerminalStreaming

import TASQuake.Analysis.SavestateCoherence
import TASQuake.Analysis.MultiGameAgreement
import TASQuake.Analysis.LoopbackQueue
import TASQuake.Analysis.ScriptFile
import TASQuake.Analysis.TestScriptText
import TASQuake.Analysis.PredictedInputs
import TASQuake.Analysis.OptimizerIsolation
import TASQuake.Analysis.PredictionFreshness
import TASQuake.Analysis.MessageRoundTrip
import TASQuake.Analysis.CommandBounds
import TASQuake.Analysis.ToggleSetting
import TASQuake.Analysis.ShotPlacement
import TASQuake.Analysis.EditCancel
import TASQuake.Analysis.SavestateFraming
import TASQuake.Analysis.PathNodes
import TASQuake.Analysis.RandomShots
import TASQuake.Analysis.StackShift
import TASQuake.Analysis.StrafeSearch
import TASQuake.Analysis.RatioApproximation
import TASQuake.Analysis.RatioMemo
import TASQuake.Analysis.BackupRotation
import TASQuake.Analysis.ConvarValues
import TASQuake.Analysis.LoadAtomicity
import TASQuake.Analysis.WriterExactness
import TASQuake.Analysis.ConsoleLines
import TASQuake.Analysis.JsonDelivery
import TASQuake.Analysis.PlaybackTargets
import TASQuake.Analysis.TestCursor
import TASQuake.Analysis.BroadcastSessions
import TASQuake.Analysis.ClientReconnect
import TASQuake.Analysis.BlockLookup
import TASQuake.Analysis.DatagramBounds

import NuzlockeSolver.Bucket.WinCertificate
import NuzlockeSolver.Bucket.SupportFp
import NuzlockeSolver.Bucket.Classify
import NuzlockeSolver.Bucket.PpAudit
import NuzlockeSolver.Bsolver.Collapse
import NuzlockeSolver.Oracle.StepExact
import NuzlockeSolver.Sweep.HpFilter
import NuzlockeSolver.Sweep.SwitchIns
import NuzlockeSolver.Sweep.RollComplete
import NuzlockeSolver.Engine.RoundTrip
import NuzlockeSolver.Engine.CritDominance
import NuzlockeSolver.Engine.AiGate
import NuzlockeSolver.Engine.Survival
import NuzlockeSolver.Engine.ExpLaw
import NuzlockeSolver.Engine.Interner
import NuzlockeSolver.Engine.FaintQueue
import NuzlockeSolver.Liveplay.Prefilter
import NuzlockeSolver.Engine.AiViewChoices
import NuzlockeSolver.Engine.MaskGuard
import NuzlockeSolver.Engine.HighestDamage
import NuzlockeSolver.Bucket.InputSplits
import NuzlockeSolver.Engine.Rolls
import NuzlockeSolver.Oracle.CollapsedOptions
import NuzlockeSolver.Liveplay.Stream
import NuzlockeSolver.Sweep.VisibleChanges
import NuzlockeSolver.Sweep.MoverCounts
import NuzlockeSolver.Liveplay.Optimality
import NuzlockeSolver.Engine.ResidualsLaw
import NuzlockeSolver.Engine.TurnResume
import NuzlockeSolver.Trace.Replay
import NuzlockeSolver.Audit.Compare
import NuzlockeSolver.Emulator.Reads

import RollingRaft.LogWindow
import RollingRaft.PreVote
import RollingRaft.BatchSize
import RollingRaft.VoteCheck
import RollingRaft.Disruption
import RollingRaft.TermOrder
import RollingRaft.PromiseFrames
import RollingRaft.SaveRace
import RollingRaft.SyncAppend
import RollingRaft.TimerService
import RollingRaft.AcceptLoop
import RollingRaft.Completions
import RollingRaft.CommitQuorum
import RollingRaft.CommandPrefix
import RollingRaft.NonVoters
import RollingRaft.SnapshotTerm
import RollingRaft.PeerAddresses
import RollingRaft.VoterChanges
import RollingRaft.Storage.AppendOrder
import RollingRaft.Storage.Shutdown
import RollingRaft.Storage.DamagedCheckpoints
import RollingRaft.Storage.RotationCrash
import RollingRaft.Storage.LegacySegment
import RollingRaft.Storage.SyncRanges
import RollingRaft.Protocol.ByteTransfer
import RollingRaft.Protocol.CorrelationScan
import RollingRaft.Protocol.GroupRouting
import RollingRaft.Protocol.ResponseCast

import VllmAscend.Attention.DsaCp
import VllmAscend.Attention.SharedkvMetadata.Split
import VllmAscend.Eplb.LayerUpdate
import VllmAscend.Core.ForkRuns
import VllmAscend.Core.ForkWaiting
import VllmAscend.Core.DynamicBatch.Budget
import VllmAscend.RecomputeOffload.RefCounts
import VllmAscend.Worker.SlotMapping
import VllmAscend.KvTransfer.Layerwise.TransCount
import VllmAscend.KvTransfer.Layerwise.SendSignals
import VllmAscend.KvTransfer.Mooncake.Reformat
import VllmAscend.KvTransfer.Mooncake.RankAgreement
import VllmAscend.KvTransfer.Mooncake.CpLargeBlocks
import VllmAscend.KvTransfer.Mooncake.CpPlacement
import VllmAscend.KvTransfer.AscendStore.LayerSave
import VllmAscend.Sample.AcceptedDrafts
import VllmAscend.Worker.Pcp.HybridExit
import VllmAscend.WeightTransfer.Ipc
import VllmAscend.WeightTransfer.Broadcast
import VllmAscend.KvOffload.Mapped.Reports
import VllmAscend.KvOffload.Mapped.Bounds
import VllmAscend.KvTransfer.AscendStore.Addresses
import VllmAscend.KvTransfer.AscendStore.Keys
import VllmAscend.KvTransfer.AscendStore.Delivery
import VllmAscend.KvTransfer.AscendStore.LoadChunks
import VllmAscend.SimLlm.ModelRunner
import VllmAscend.SimLlm.KvManager
import VllmAscend.CpuOffload.Release
import VllmAscend.CpuOffload.Publish
import VllmAscend.KvTransfer.Mooncake.HybridPulls
import VllmAscend.KvTransfer.Mooncake.MambaTransfer
import VllmAscend.Worker.SleepMode

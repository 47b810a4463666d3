import VllmAscend.Worker.Pcp.Restore

/-!
# The index lists of prefill attention

For its head chunk and for its tail chunk a rank lists the keys of the chunks before, which every query sees, and
those of the chunk itself, which are masked causally. The keys are places in the restored rows.
-/

namespace VllmAscend.Worker.Pcp

open Ragged List

structure PcpIndexLists where
  qHeadIdx : List Nat
  qTailIdx : List Nat
  kvWithQHeadNomaskIdx : List Nat
  kvWithQHeadMaskIdx : List Nat
  kvWithQTailNomaskIdx : List Nat
  kvWithQTailMaskIdx : List Nat
  kvTailProjIdx : List Nat
  kvWithQHeadAttnIdxInTail : List Nat
  kvWithQTailAttnIdxInTail : List Nat
  chunkSeqlens : List Nat
  kvWithQHeadNomaskSeqlens : List Nat
  kvWithQTailNomaskSeqlens : List Nat
  headActualSeqLengthsKv : List Nat
  tailActualSeqLengthsKv : List Nat
  qReqOffset : Nat
  kvReqOffset : Nat

namespace PcpIndexLists

def empty : PcpIndexLists := ⟨[], [], [], [], [], [], [], [], [], [], [], [], [], [], 0, 0⟩

/-- `list(range(start, stop))` -/
def pyRange (start stop : Nat) : List Nat := range' start (stop - start)

def addRequest (pcpWorldSize pcpWorldRank : Nat) (lists : PcpIndexLists) (seqLen : Nat) : PcpIndexLists :=
  let q := lists.qReqOffset
  let kv := lists.kvReqOffset
  let qHeadChunkId := pcpWorldRank
  let qTailChunkId := pcpWorldSize * 2 - 1 - pcpWorldRank
  let chunkLen := seqLen / 2
  let tailProjOffset := lists.kvTailProjIdx.length
  let tailProjLen := chunkLen * (qTailChunkId + 1)
  let headAttn := lists.kvWithQHeadAttnIdxInTail ++
    pyRange tailProjOffset (tailProjOffset + chunkLen * (qHeadChunkId + 1))
  let tailAttn := lists.kvWithQTailAttnIdxInTail ++ pyRange tailProjOffset (tailProjOffset + tailProjLen)
  { qHeadIdx := lists.qHeadIdx ++ pyRange q (q + chunkLen)
    qTailIdx := lists.qTailIdx ++ pyRange (q + chunkLen) (q + chunkLen * 2)
    kvWithQHeadNomaskIdx := lists.kvWithQHeadNomaskIdx ++ pyRange kv (kv + chunkLen * qHeadChunkId)
    kvWithQHeadMaskIdx := lists.kvWithQHeadMaskIdx ++
      pyRange (kv + chunkLen * qHeadChunkId) (kv + chunkLen * (qHeadChunkId + 1))
    kvWithQTailNomaskIdx := lists.kvWithQTailNomaskIdx ++ pyRange kv (kv + chunkLen * qTailChunkId)
    kvWithQTailMaskIdx := lists.kvWithQTailMaskIdx ++
      pyRange (kv + chunkLen * qTailChunkId) (kv + chunkLen * (qTailChunkId + 1))
    kvTailProjIdx := lists.kvTailProjIdx ++ pyRange kv (kv + tailProjLen)
    kvWithQHeadAttnIdxInTail := headAttn
    kvWithQTailAttnIdxInTail := tailAttn
    chunkSeqlens := lists.chunkSeqlens ++ [chunkLen]
    kvWithQHeadNomaskSeqlens := lists.kvWithQHeadNomaskSeqlens ++ [chunkLen * qHeadChunkId]
    kvWithQTailNomaskSeqlens := lists.kvWithQTailNomaskSeqlens ++ [chunkLen * qTailChunkId]
    headActualSeqLengthsKv := lists.headActualSeqLengthsKv ++ [headAttn.length]
    tailActualSeqLengthsKv := lists.tailActualSeqLengthsKv ++ [tailAttn.length]
    qReqOffset := q + seqLen
    kvReqOffset := kv + seqLen * pcpWorldSize }

def generate (pcpWorldSize pcpWorldRank numDecodeReqs : Nat) (queryLens : List Nat) : PcpIndexLists :=
  queryLens.zipIdx.foldl (fun lists entry =>
    if entry.2 < numDecodeReqs then lists else addRequest pcpWorldSize pcpWorldRank lists entry.1) empty

variable (lists : PcpIndexLists)

def qFullIdx : List Nat := argsort (lists.qHeadIdx ++ lists.qTailIdx)

def attnMaskSeqlens : List Nat := cumsum lists.chunkSeqlens

def headAttnNomaskSeqlens : List Nat := cumsum lists.kvWithQHeadNomaskSeqlens

def tailAttnNomaskSeqlens : List Nat := cumsum lists.kvWithQTailNomaskSeqlens

end PcpIndexLists

/-- The keys that attention gives to query `i` of a packed batch. Lengths are given as running totals;
under the causal mask the last query of a request sees all keys of the request, the one before it all
but one, and so on. -/
def attendedKeys (actualSeqLengths actualSeqLengthsKv keys : List Nat) (causal : Bool) (i : Nat) : List Nat :=
  let request := (actualSeqLengths.takeWhile fun total => decide (total ≤ i)).length
  let segment := (keys.drop ((0 :: actualSeqLengthsKv).getD request 0)).take
    (actualSeqLengthsKv.getD request 0 - (0 :: actualSeqLengthsKv).getD request 0)
  if causal then segment.take (segment.length + i + 1 - actualSeqLengths.getD request 0) else segment

namespace PcpIndexLists

variable (lists : PcpIndexLists)

def headKeys (i : Nat) : List Nat :=
  attendedKeys lists.attnMaskSeqlens lists.headAttnNomaskSeqlens lists.kvWithQHeadNomaskIdx false i ++
    attendedKeys lists.attnMaskSeqlens lists.attnMaskSeqlens lists.kvWithQHeadMaskIdx true i

def tailKeys (i : Nat) : List Nat :=
  attendedKeys lists.attnMaskSeqlens lists.tailAttnNomaskSeqlens lists.kvWithQTailNomaskIdx false i ++
    attendedKeys lists.attnMaskSeqlens lists.attnMaskSeqlens lists.kvWithQTailMaskIdx true i

/-- The keys of the path that projects the keys of the tail chunk once: `kv_tail_proj_idx` composed with
the places in it. -/
def headTailProjKeys (i : Nat) : Option (List Nat) :=
  (indexSelect lists.kvTailProjIdx lists.kvWithQHeadAttnIdxInTail).map fun keys =>
    attendedKeys lists.attnMaskSeqlens lists.headActualSeqLengthsKv keys true i

def tailTailProjKeys (i : Nat) : Option (List Nat) :=
  (indexSelect lists.kvTailProjIdx lists.kvWithQTailAttnIdxInTail).map fun keys =>
    attendedKeys lists.attnMaskSeqlens lists.tailActualSeqLengthsKv keys true i

/-! ## What the loop computes -/

def indexLists (pcpWorldSize pcpWorldRank : Nat) (seqLens : List Nat) : PcpIndexLists :=
  let tailChunks := pcpWorldSize * 2 - 1 - pcpWorldRank
  let queries := ranges seqLens fun n => n
  let kv := ranges seqLens fun n => n * pcpWorldSize
  let inTail := ranges seqLens fun n => n / 2 * (tailChunks + 1)
  { qHeadIdx := queries (fun _ => 0) (· / 2)
    qTailIdx := queries (· / 2) (· / 2)
    kvWithQHeadNomaskIdx := kv (fun _ => 0) (· / 2 * pcpWorldRank)
    kvWithQHeadMaskIdx := kv (· / 2 * pcpWorldRank) (· / 2)
    kvWithQTailNomaskIdx := kv (fun _ => 0) (· / 2 * tailChunks)
    kvWithQTailMaskIdx := kv (· / 2 * tailChunks) (· / 2)
    kvTailProjIdx := kv (fun _ => 0) (· / 2 * (tailChunks + 1))
    kvWithQHeadAttnIdxInTail := inTail (fun _ => 0) (· / 2 * (pcpWorldRank + 1))
    kvWithQTailAttnIdxInTail := inTail (fun _ => 0) (· / 2 * (tailChunks + 1))
    chunkSeqlens := seqLens.map (· / 2)
    kvWithQHeadNomaskSeqlens := seqLens.map (· / 2 * pcpWorldRank)
    kvWithQTailNomaskSeqlens := seqLens.map (· / 2 * tailChunks)
    headActualSeqLengthsKv := cumsum (seqLens.map (· / 2 * (pcpWorldRank + 1)))
    tailActualSeqLengthsKv := cumsum (seqLens.map (· / 2 * (tailChunks + 1)))
    qReqOffset := seqLens.sum
    kvReqOffset := (seqLens.map (· * pcpWorldSize)).sum }

theorem addRequest_indexLists (pcpWorldSize pcpWorldRank : Nat) (seqLens : List Nat) (n : Nat) :
    addRequest pcpWorldSize pcpWorldRank (indexLists pcpWorldSize pcpWorldRank seqLens) n =
      indexLists pcpWorldSize pcpWorldRank (seqLens ++ [n]) := by
  have hchunk : ∀ a c k : Nat, a + c * (k + 1) - (a + c * k) = c := by
    intro a c k
    rw [Nat.mul_add]
    omega
  have htail : ∀ a c : Nat, a + c * 2 - (a + c) = c := by omega
  unfold addRequest indexLists pyRange
  simp [ranges_snoc, length_ranges, cumsum_snoc, hchunk, htail]

theorem generate_eq (pcpWorldSize pcpWorldRank numDecodeReqs : Nat) (queryLens : List Nat) :
    generate pcpWorldSize pcpWorldRank numDecodeReqs queryLens =
      indexLists pcpWorldSize pcpWorldRank (queryLens.drop numDecodeReqs) := by
  unfold generate
  rw [Loop.foldl_zipIdx_skip]
  generalize queryLens.drop numDecodeReqs = seqLens
  induction seqLens using reverseRecOn with
  | nil => rfl
  | append_singleton seqLens n ih => rw [foldl_append, ih, foldl_cons, foldl_nil, addRequest_indexLists]

end PcpIndexLists

theorem attendedKeys_flat {counts countsKv : List Nat} (hlen : countsKv.length = counts.length) {b p : Nat}
    (hp : p < counts.getD b 0) (f : Nat → Nat → Nat) (causal : Bool) :
    attendedKeys (cumsum counts) (cumsum countsKv) (flat countsKv f) causal (start counts b + p) =
      (range (if causal then min (countsKv.getD b 0 + p + 1 - counts.getD b 0) (countsKv.getD b 0)
        else countsKv.getD b 0)).map (f b) := by
  have hb := lt_length_of_lt_getD hp
  unfold attendedKeys
  dsimp only
  rw [length_takeWhile_cumsum hp, getD_zero_cons_cumsum (hlen.symm ▸ hb.le), getD_cumsum (hlen.symm ▸ hb), getD_cumsum hb, start_succ, start_succ,
    Nat.add_sub_cancel_left, slice_flat]
  cases causal with
  | false => rfl
  | true =>
    simp only [if_true, length_map, length_range]
    rw [← map_take, take_range]
    congr 3
    omega

end VllmAscend.Worker.Pcp

import VllmAscend.KvTransfer.Mooncake.RemoteRanks

/-!
# Ports under context parallelism

Every decoder rank gets, for each head group of the prefiller inside its own, the ports of one prefill group that
hold its blocks. Replicas of a prefill group are taken in turn.
-/

namespace VllmAscend.KvTransfer.Mooncake

open List Option Loop

structure CpSizes where
  tpSize : Nat
  pcpSize : Nat
  dcpSize : Nat
  portBase : Nat

structure HeadGroup where
  heads : List Nat
  cpGroups : List (List Nat)
  selectCpGroupsId : Nat

/-- The groups of heads, one for each rank or one for each head; `latent` is `use_mla or
use_sparse`. -/
def getKvHeadGroups (latent : Bool) (numKeyValueHeads tpSize : Nat) : Option (List (List Nat)) :=
  if latent then some [[0]]
  else if numKeyValueHeads / tpSize ≥ 1 then
    some ((range tpSize).map fun tpRank =>
      (range (numKeyValueHeads / tpSize)).map fun headIdx => headIdx + tpRank * (numKeyValueHeads / tpSize))
  else if tpSize / numKeyValueHeads > 1 then
    some ((range numKeyValueHeads).map fun kvHeadIds => [kvHeadIds])
  else none

namespace CpSizes

variable (s : CpSizes)

def cpSize : Nat := s.pcpSize * s.dcpSize

def cpGroup (kvHeadGroupOffset dcpRepeatIdx : Nat) : List Nat :=
  (range s.pcpSize).flatMap fun pcpRank =>
    (range s.dcpSize).map fun dcpRank =>
      dcpRank + s.portBase + s.tpSize * pcpRank + s.dcpSize * dcpRepeatIdx + kvHeadGroupOffset

def getCpGroupMeta (latent : Bool) (numKeyValueHeads : Nat) : Option (List HeadGroup) := do
  let kvHeadGroups ← getKvHeadGroups latent numKeyValueHeads s.tpSize
  let dcpRepeatNum := s.tpSize / kvHeadGroups.length / s.dcpSize
  some (kvHeadGroups.zipIdx.map fun p =>
    { heads := p.1
      cpGroups := (range dcpRepeatNum).map fun dcpRepeatIdx =>
        s.cpGroup (s.tpSize / kvHeadGroups.length * p.2) dcpRepeatIdx
      selectCpGroupsId := 0 })

end CpSizes

/-- `local_remote_block_port_mappings`: for each decoder port, one list of ports for each head
group. -/
abbrev PortMappings := Dict Nat (List (List Nat))

def portRemoteList (rBlk cpSize dIdx : Nat) (pCpGroup : List Nat) : List Nat :=
  (pCpGroup.zipIdx.filter fun p => p.2 / rBlk % cpSize = dIdx).map Prod.fst

def bindCpGroup (rBlk : Nat) (dCpGroup pCpGroup : List Nat) (mappings : PortMappings) : PortMappings :=
  dCpGroup.zipIdx.foldl (fun m p =>
    m.set p.1 ((m.get? p.1).getD [] ++ [portRemoteList rBlk dCpGroup.length p.2 pCpGroup])) mappings

namespace HeadGroup

def advance (p : HeadGroup) : HeadGroup :=
  { p with
    selectCpGroupsId := if p.selectCpGroupsId + 1 < p.cpGroups.length then p.selectCpGroupsId + 1 else 0 }

def select (rBlk : Nat) (s : HeadGroup × PortMappings) (dCpGroup : List Nat) :
    Option (HeadGroup × PortMappings) :=
  (s.1.cpGroups[s.1.selectCpGroupsId]?).map fun pCpGroup => (s.1.advance, bindCpGroup rBlk dCpGroup pCpGroup s.2)

def bind (rBlk : Nat) (d p : HeadGroup) (mappings : PortMappings) :
    Option (HeadGroup × PortMappings) :=
  if p.heads ⊆ d.heads then d.cpGroups.foldlM (select rBlk) (p, mappings) else some (p, mappings)

def bindAll (rBlk : Nat) (d : HeadGroup) :
    List HeadGroup → PortMappings → Option (List HeadGroup × PortMappings)
  | [], mappings => some ([], mappings)
  | p :: rest, mappings => do
    let (p, mappings) ← bind rBlk d p mappings
    let (rest, mappings) ← bindAll rBlk d rest mappings
    some (p :: rest, mappings)

end HeadGroup

structure CpEngines where
  prefill : CpSizes
  decode : CpSizes
  numKeyValueHeads : Nat
  useMla : Bool
  useSparse : Bool

namespace CpEngines

variable (e : CpEngines)

def latent : Bool := e.useMla || e.useSparse

def contextParallelParametersCheck : Bool :=
  e.prefill.cpSize % e.decode.cpSize = 0 ∧
    (e.latent ∨
      let pNodeHeadsPerRank := (e.numKeyValueHeads + e.prefill.tpSize - 1) / e.prefill.tpSize
      let dNodeHeadsPerRank := (e.numKeyValueHeads + e.decode.tpSize - 1) / e.decode.tpSize
      dNodeHeadsPerRank % pNodeHeadsPerRank = 0)

def getLocalRemoteBlockPortMappings (rBlk : Nat) : Option PortMappings :=
  if e.contextParallelParametersCheck then do
    let pNodeCpGroupMeta ← e.prefill.getCpGroupMeta e.latent e.numKeyValueHeads
    let dNodeCpGroupMeta ← e.decode.getCpGroupMeta e.latent e.numKeyValueHeads
    let (_, mappings) ← dNodeCpGroupMeta.foldlM
      (fun s d => HeadGroup.bindAll rBlk d s.1 s.2) (pNodeCpGroupMeta, ∅)
    some mappings
  else none

/-- How many messages each prefill port waits for; `host` looks up the node of a worker. -/
def getRemotePortSendNum (host : Nat → String) (mappings : PortMappings) :
    Option (Dict Nat RemotePortInfo) :=
  let start : Dict Nat RemotePortInfo :=
    (range (e.prefill.tpSize * e.prefill.pcpSize)).foldl (fun d port =>
      d.set (e.prefill.portBase + port) { num := 0, host := host port }) ∅
  mappings.values.flatten.flatten.foldlM (fun d remotePort =>
    (d.get? remotePort).map fun info => d.set remotePort { info with num := info.num + 1 }) start

end CpEngines

/-! ## What the loops do at one decoder port -/

section AtPort

variable {rBlk ℓ port : Nat}

def listsAt (port : Nat) (m : PortMappings) : List (List Nat) := (m.get? port).getD []

theorem listsAt_set (m : PortMappings) (k : Nat) (v : List (List Nat)) :
    listsAt port (m.set k v) = if k = port then v else listsAt port m := by
  unfold listsAt
  rw [Dict.get?_set]
  split <;> rfl

variable {cpSize : Nat} {dCpGroup pCpGroup : List Nat}

theorem listsAt_bindFrom_of_not_mem (n : Nat) (m : PortMappings) (hport : port ∉ dCpGroup) :
    listsAt port ((dCpGroup.zipIdx n).foldl (fun m p =>
      m.set p.1 ((m.get? p.1).getD [] ++ [portRemoteList rBlk cpSize p.2 pCpGroup])) m) = listsAt port m := by
  induction dCpGroup generalizing n m with
  | nil => rfl
  | cons x rest ih =>
    obtain ⟨hx, hrest⟩ := not_or.mp (mt mem_cons.mpr hport)
    rw [zipIdx_cons, foldl_cons, ih (n + 1) _ hrest, listsAt_set, if_neg (Ne.symm hx)]

theorem listsAt_bindFrom (rBlk cpSize : Nat) (pCpGroup : List Nat) (n : Nat) (m : PortMappings) (hnodup : dCpGroup.Nodup)
    (hport : dCpGroup[ℓ]? = some port) : listsAt port ((dCpGroup.zipIdx n).foldl (fun m p =>
      m.set p.1 ((m.get? p.1).getD [] ++ [portRemoteList rBlk cpSize p.2 pCpGroup])) m) =
        listsAt port m ++ [portRemoteList rBlk cpSize (n + ℓ) pCpGroup] := by
  induction dCpGroup generalizing n m ℓ with
  | nil => simp at hport
  | cons x rest ih =>
    obtain ⟨hx, hrest⟩ := nodup_cons.mp hnodup
    rw [zipIdx_cons, foldl_cons]
    cases ℓ with
    | zero =>
      obtain rfl : x = port := by simpa using hport
      rw [listsAt_bindFrom_of_not_mem (n + 1) _ hx, listsAt_set, if_pos rfl]
      rfl
    | succ ℓ =>
      have hne : x ≠ port := fun h => hx (h ▸ mem_of_getElem? hport)
      rw [ih (n + 1) _ hrest hport, listsAt_set, if_neg hne, Nat.add_assoc, Nat.add_comm 1 ℓ]

/-! ## Head groups -/

namespace HeadGroup

structure Like (p₀ p : HeadGroup) : Prop where
  heads : p.heads = p₀.heads
  cpGroups : p.cpGroups = p₀.cpGroups
  selected : p.selectCpGroupsId < p.cpGroups.length

variable {p₀ p d : HeadGroup}

theorem Like.advance (h : Like p₀ p) : Like p₀ p.advance := by
  refine ⟨h.heads, h.cpGroups, ?_⟩
  have hlen := h.selected
  unfold HeadGroup.advance
  dsimp only
  split
  · assumption
  · omega

theorem Like.select (h : Like p₀ p) (rBlk : Nat) (dCpGroup : List Nat) (m : PortMappings) :
    ∃ pCpGroup ∈ p₀.cpGroups, select rBlk (p, m) dCpGroup =
      some (p.advance, bindCpGroup rBlk dCpGroup pCpGroup m) := by
  have hsel := h.selected
  refine ⟨p.cpGroups[p.selectCpGroupsId], ?_, ?_⟩
  · rw [← h.cpGroups]
    exact getElem_mem _
  · simp only [HeadGroup.select, getElem?_eq_getElem hsel, map_some]

/-- A decoder head group, as far as the port is concerned: it is in one place only. -/
structure Place (d : HeadGroup) (port ρ ℓ cpSize : Nat) : Prop where
  nodup : ∀ g ∈ d.cpGroups, g.Nodup
  at_port : ∃ g, d.cpGroups[ρ]? = some g ∧ g[ℓ]? = some port ∧ g.length = cpSize
  only : ∀ ρ' g, d.cpGroups[ρ']? = some g → port ∈ g → ρ' = ρ

variable {m : PortMappings} {ρ : Nat} {ps₀ : List HeadGroup}

theorem bind_skip (h : Like p₀ p) (hport : ∀ g ∈ d.cpGroups, port ∉ g) :
    ∃ p' m', bind rBlk d p m = some (p', m') ∧ Like p₀ p' ∧ listsAt port m' = listsAt port m := by
  unfold HeadGroup.bind
  split
  · have hfold : ∀ (l : List (List Nat)) (p : HeadGroup) (m : PortMappings), (∀ g ∈ l, port ∉ g) →
        Like p₀ p → ∃ p' m', l.foldlM (select rBlk) (p, m) = some (p', m') ∧ Like p₀ p' ∧
          listsAt port m' = listsAt port m := by
      intro l
      induction l with
      | nil => exact fun p m _ h => ⟨p, m, rfl, h, rfl⟩
      | cons g rest ih =>
        intro p m hl h
        obtain ⟨pCpGroup, -, hsel⟩ := h.select rBlk g m
        obtain ⟨p', m', hrest, h', heq⟩ := ih p.advance (bindCpGroup rBlk g pCpGroup m)
          (fun g hg => hl g (mem_cons_of_mem _ hg)) h.advance
        refine ⟨p', m', ?_, h', heq.trans ?_⟩
        · rw [foldlM_cons, hsel]
          exact hrest
        · exact listsAt_bindFrom_of_not_mem 0 m (hl g mem_cons_self)
    exact hfold d.cpGroups p m hport h
  · exact ⟨p, m, rfl, h, rfl⟩

theorem bind_at (h : Like p₀ p) (hd : d.Place port ρ ℓ cpSize)
    (hsub : p₀.heads ⊆ d.heads) : ∃ p' m', bind rBlk d p m = some (p', m') ∧ Like p₀ p' ∧ ∃ pCpGroup ∈ p₀.cpGroups,
        listsAt port m' = listsAt port m ++ [portRemoteList rBlk cpSize ℓ pCpGroup] := by
  unfold HeadGroup.bind
  rw [h.heads, if_pos hsub]
  obtain ⟨g, hg, hℓ, hlen⟩ := hd.at_port
  have hρ : ρ < d.cpGroups.length := (List.getElem?_eq_some_iff.mp hg).1
  obtain ⟨⟨p', m'⟩, hfold, h', hview⟩ := foldlM_only (f := select rBlk) (l := d.cpGroups) (i := ρ)
    (fun s => Like p₀ s.1) (fun s => listsAt port s.2)
    (fun v v' => ∃ pCpGroup ∈ p₀.cpGroups, v' = v ++ [portRemoteList rBlk cpSize ℓ pCpGroup])
    (by
      rintro ρ' g' ⟨p, m⟩ hg' hne h
      obtain ⟨pCpGroup, -, hsel⟩ := h.select rBlk g' m
      refine ⟨_, hsel, h.advance, listsAt_bindFrom_of_not_mem 0 m fun hmem => ?_⟩
      exact hne (hd.only ρ' g' hg' hmem))
    (by
      rintro g' ⟨p, m⟩ hg' h
      obtain rfl : g = g' := some_inj.mp (hg.symm.trans hg')
      obtain ⟨pCpGroup, hmem, hsel⟩ := h.select rBlk g m
      refine ⟨_, hsel, h.advance, pCpGroup, hmem, ?_⟩
      have hbind := listsAt_bindFrom rBlk g.length pCpGroup 0 m (hd.nodup g (mem_of_getElem? hg)) hℓ
      rw [Nat.zero_add, hlen] at hbind
      rw [← hbind, ← hlen]
      rfl)
    hρ (p, m) h
  exact ⟨p', m', hfold, h', hview⟩

theorem bindAll_skip {ps : List HeadGroup} (h : Forall₂ Like ps₀ ps)
    (hport : ∀ g ∈ d.cpGroups, port ∉ g) : ∃ ps' m', bindAll rBlk d ps m = some (ps', m') ∧
      Forall₂ Like ps₀ ps' ∧ listsAt port m' = listsAt port m := by
  induction h generalizing m with
  | nil => exact ⟨[], m, rfl, .nil, rfl⟩
  | cons hp _ ih =>
    obtain ⟨p', m₁, h₁, hp', heq₁⟩ := bind_skip (m := m) hp hport
    obtain ⟨ps', m₂, h₂, hps', heq₂⟩ := ih (m := m₁)
    refine ⟨p' :: ps', m₂, ?_, .cons hp' hps', heq₂.trans heq₁⟩
    rw [bindAll, h₁]
    simp only [bind_eq_bind, bind_some, h₂]

abbrev Binds (rBlk cpSize ℓ : Nat) (d : HeadGroup) (ps : List HeadGroup) : List (List Nat) → Prop :=
  Forall₂ (fun p l => ∃ pCpGroup ∈ p.cpGroups, l = portRemoteList rBlk cpSize ℓ pCpGroup)
    (ps.filter fun p => p.heads ⊆ d.heads)

theorem bindAll_at {ps : List HeadGroup} (h : Forall₂ Like ps₀ ps) (hd : d.Place port ρ ℓ cpSize) : ∃ ps' m' lists,
    bindAll rBlk d ps m = some (ps', m') ∧ Forall₂ Like ps₀ ps' ∧ listsAt port m' = listsAt port m ++ lists ∧
    Binds rBlk cpSize ℓ d ps₀ lists := by
  induction h generalizing m with
  | nil => exact ⟨[], m, [], rfl, .nil, (append_nil _).symm, .nil⟩
  | @cons p₀ p _ _ hp _ ih =>
    by_cases hsub : p₀.heads ⊆ d.heads
    · obtain ⟨p', m₁, h₁, hp', pCpGroup, hmem, heq₁⟩ := bind_at (m := m) hp hd hsub
      obtain ⟨ps', m₂, lists, h₂, hps', heq₂, hlists⟩ := ih (m := m₁)
      refine ⟨p' :: ps', m₂, portRemoteList rBlk cpSize ℓ pCpGroup :: lists, ?_, .cons hp' hps', ?_, ?_⟩
      · rw [bindAll, h₁]
        simp only [bind_eq_bind, bind_some, h₂]
      · rw [heq₂, heq₁, append_assoc, singleton_append]
      · rw [Binds, filter_cons_of_pos (by simpa using hsub)]
        exact .cons ⟨pCpGroup, hmem, rfl⟩ hlists
    · obtain ⟨ps', m', lists, h₂, hps', heq, hlists⟩ := ih (m := m)
      refine ⟨p :: ps', m', lists, ?_, .cons hp hps', heq, ?_⟩
      · rw [bindAll, HeadGroup.bind, hp.heads, if_neg hsub]
        simp only [bind_eq_bind, bind_some, h₂]
      · rwa [Binds, filter_cons_of_neg (by simpa using hsub)]

theorem foldlM_bindAll (rBlk : Nat) {ds : List HeadGroup} {i : Nat} (hi : ds[i]? = some d)
    (hd : d.Place port ρ ℓ cpSize) (honly : ∀ j d', ds[j]? = some d' → j ≠ i → ∀ g ∈ d'.cpGroups, port ∉ g)
    (hps : Forall₂ Like ps₀ ps₀) : ∃ ps' m lists,
    ds.foldlM (fun s d => bindAll rBlk d s.1 s.2) (ps₀, ∅) = some (ps', m) ∧ listsAt port m = lists ∧
    Binds rBlk cpSize ℓ d ps₀ lists := by
  obtain ⟨⟨ps', m⟩, hfold, -, lists, heq, hlists⟩ := foldlM_only
    (f := fun s d => bindAll rBlk d s.1 s.2) (l := ds) (i := i)
    (fun s => Forall₂ Like ps₀ s.1) (fun s => listsAt port s.2)
    (fun v v' => ∃ lists, v' = v ++ lists ∧ Binds rBlk cpSize ℓ d ps₀ lists)
    (by
      rintro j d' ⟨ps, m⟩ hj hne h
      obtain ⟨ps', m', hbind, h', heq⟩ := bindAll_skip (m := m) h (honly j d' hj hne)
      exact ⟨_, hbind, h', heq⟩)
    (by
      rintro d' ⟨ps, m⟩ hj h
      obtain rfl : d = d' := some_inj.mp (hi.symm.trans hj)
      obtain ⟨ps', m', lists, hbind, h', heq, hlists⟩ := bindAll_at (m := m) h hd
      exact ⟨_, hbind, h', lists, heq, hlists⟩)
    (List.getElem?_eq_some_iff.mp hi).1 (ps₀, ∅) hps
  exact ⟨ps', m, lists, hfold, heq, hlists⟩

end HeadGroup

end AtPort

end VllmAscend.KvTransfer.Mooncake

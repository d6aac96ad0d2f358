import CiInfra.Runners.NodepoolDefs
import Mathlib.Data.List.Perm.Subperm

/-!
# Sharing a queue

Clusters that deploy a module under one runner name prefix advertise the same labels and share the
queue. Each deploy computes the share of its own cluster from the clusters file. It resolves its own
prefix with the defaults, but takes that of every other cluster from the other's own block.
-/

namespace CiInfra.Runners

/-- A cluster with its id. -/
abbrev Member := String × ClusterConfig

/-- The cluster deploys the module, or its `-opt` variant. -/
def ClusterConfig.deploys (cfg : ClusterConfig) (base : String) : Bool :=
  cfg.modules.any fun m => removesuffix m "-opt" == base

/-- `((cfg.get("arc-runners") or {}).get("runner_name_prefix")) or ""`. -/
def ClusterConfig.ownPrefix (cfg : ClusterConfig) : String :=
  (cfg.arcRunners.bind (·.runnerNamePrefix)).getD ""

/-- The sorted peers of `compute_cluster_sharding`. -/
def ClustersFile.peers (file : ClustersFile) (base target : String) : List String :=
  ((file.clusters.filter fun c => c.2.deploys base && c.2.ownPrefix == target).map (·.1)).mergeSort

/-- `compute_cluster_sharding`: the index and the count. -/
def computeClusterSharding (file : ClustersFile) (clusterId moduleName runnerNamePrefix : String) :
    ℕ × ℕ :=
  let peers := file.peers (removesuffix moduleName "-opt") runnerNamePrefix
  if clusterId ∈ peers then (peers.idxOf clusterId, peers.length) else (0, 1)

/-- The share of a cluster as its own deploy of a module computes it. -/
def ClustersFile.share (file : ClustersFile) (c : Member) (moduleName : String) : ℕ × ℕ :=
  computeClusterSharding file c.1 moduleName (file.runnerNamePrefix c.2)

/-- The clusters that deploy a module and render under a prefix. -/
def ClustersFile.group (file : ClustersFile) (base target : String) : List Member :=
  file.clusters.filter fun c => c.2.deploys base && file.runnerNamePrefix c.2 == target

/-- The shares of the clusters of one group split the queue: each part is claimed once. -/
structure SplitsQueue (file : ClustersFile) (base target : String) : Prop where
  count : ∀ c ∈ file.group base target, ∀ m ∈ c.2.modules, removesuffix m "-opt" = base →
    (file.share c m).2 = (file.group base target).length
  distinct : ∀ c ∈ file.group base target, ∀ d ∈ file.group base target, ∀ m ∈ c.2.modules,
    ∀ n ∈ d.2.modules, removesuffix m "-opt" = base → removesuffix n "-opt" = base →
      (file.share c m).1 = (file.share d n).1 → c = d
  covered : ∀ i < (file.group base target).length, ∃ c ∈ file.group base target,
    ∃ m ∈ c.2.modules, removesuffix m "-opt" = base ∧ (file.share c m).1 = i

/-! ### Who resolves a prefix differently -/

/-- A cluster that renders under a prefix of the defaults is no peer under it, and one under the
empty prefix. It must be alone with both. -/
def InheritsAlone (file : ClustersFile) (base : String) : Prop :=
  ∀ c ∈ file.clusters, c.2.deploys base = true → file.runnerNamePrefix c.2 ≠ c.2.ownPrefix →
    ∀ d ∈ file.clusters, d.2.deploys base = true → d.1 ≠ c.1 →
      d.2.ownPrefix ≠ "" ∧ d.2.ownPrefix ≠ file.runnerNamePrefix c.2

section Shares

variable {file : ClustersFile} {base target : String} {c d : Member}

/-- Only a cluster without a block of its own renders under another prefix than its own. -/
theorem arcRunners_of_ne (h : file.runnerNamePrefix c.2 ≠ c.2.ownPrefix) :
    c.2.arcRunners = none := by
  unfold ClustersFile.runnerNamePrefix ClustersFile.resolveArcRunners ClusterConfig.ownPrefix at h
  cases hown : c.2.arcRunners with
  | none => rfl
  | some block => simp [hown] at h

theorem ownPrefix_of_ne (h : file.runnerNamePrefix c.2 ≠ c.2.ownPrefix) : c.2.ownPrefix = "" := by
  rw [ClusterConfig.ownPrefix, arcRunners_of_ne h]
  rfl

/-- All clusters that inherit do so from the same defaults. -/
theorem runnerNamePrefix_of_ne (hc : file.runnerNamePrefix c.2 ≠ c.2.ownPrefix)
    (hd : file.runnerNamePrefix d.2 ≠ d.2.ownPrefix) :
    file.runnerNamePrefix c.2 = file.runnerNamePrefix d.2 := by
  unfold ClustersFile.runnerNamePrefix ClustersFile.resolveArcRunners
  rw [arcRunners_of_ne hc, arcRunners_of_ne hd]

theorem mem_group : c ∈ file.group base target ↔
    c ∈ file.clusters ∧ c.2.deploys base = true ∧ file.runnerNamePrefix c.2 = target := by
  simp [ClustersFile.group]

theorem mem_peers {id : String} : id ∈ file.peers base target ↔
    ∃ cfg, (id, cfg) ∈ file.clusters ∧ cfg.deploys base = true ∧ cfg.ownPrefix = target := by
  simp [ClustersFile.peers, and_assoc]

theorem nodup_peers : (file.peers base target).Nodup :=
  (List.mergeSort_perm _ _).nodup_iff.mpr
    (file.ids.sublist (List.filter_sublist.map _))

theorem eq_of_id (hc : c ∈ file.clusters) (hd : d ∈ file.clusters) (h : c.1 = d.1) : c = d :=
  List.inj_on_of_nodup_map file.ids hc hd h

/-- The cluster is among its peers exactly if it renders under its own prefix. -/
theorem mem_peers_self (hc : c ∈ file.clusters) (hdeploys : c.2.deploys base = true) :
    c.1 ∈ file.peers base (file.runnerNamePrefix c.2) ↔
      file.runnerNamePrefix c.2 = c.2.ownPrefix := by
  rw [mem_peers]
  constructor
  · rintro ⟨cfg, hcfg, -, hown⟩
    have hsame : c.2 = cfg := congrArg Prod.snd (eq_of_id hc hcfg rfl)
    rw [← hown, hsame]
  · exact fun hown => ⟨c.2, hc, hdeploys, hown.symm⟩

theorem share_of_ne {m : String} (hc : c ∈ file.clusters) (hdeploys : c.2.deploys base = true)
    (hm : removesuffix m "-opt" = base) (hne : file.runnerNamePrefix c.2 ≠ c.2.ownPrefix) :
    file.share c m = (0, 1) := by
  unfold ClustersFile.share computeClusterSharding
  rw [hm, if_neg (fun hmem => hne ((mem_peers_self hc hdeploys).mp hmem))]

theorem share_of_eq {m : String} (hc : c ∈ file.clusters) (hdeploys : c.2.deploys base = true)
    (hm : removesuffix m "-opt" = base) (heq : file.runnerNamePrefix c.2 = c.2.ownPrefix) :
    file.share c m = ((file.peers base (file.runnerNamePrefix c.2)).idxOf c.1,
      (file.peers base (file.runnerNamePrefix c.2)).length) := by
  unfold ClustersFile.share computeClusterSharding
  rw [hm, if_pos ((mem_peers_self hc hdeploys).mpr heq)]

theorem exists_module (h : c.2.deploys base = true) :
    ∃ m ∈ c.2.modules, removesuffix m "-opt" = base := by
  simpa [ClusterConfig.deploys] using h

/-- A cluster that inherits is alone in its group. -/
theorem group_of_ne (halone : InheritsAlone file base) (hc : c ∈ file.group base target)
    (hne : file.runnerNamePrefix c.2 ≠ c.2.ownPrefix) : file.group base target = [c] := by
  obtain ⟨hmem, hdeploys, rfl⟩ := mem_group.mp hc
  have hall : ∀ d ∈ file.group base (file.runnerNamePrefix c.2), d = c := by
    intro d hd
    obtain ⟨hdmem, hddeploys, hsame⟩ := mem_group.mp hd
    by_contra hdc
    obtain ⟨hempty, hother⟩ := halone c hmem hdeploys hne d hdmem hddeploys
      fun hid => hdc (eq_of_id hdmem hmem hid)
    have hown : file.runnerNamePrefix d.2 = d.2.ownPrefix := by
      by_contra hdne
      exact hempty (ownPrefix_of_ne hdne)
    exact hother (hown.symm.trans hsame)
  have hnodup : (file.group base (file.runnerNamePrefix c.2)).Nodup :=
    (List.Nodup.of_map _ file.ids).sublist List.filter_sublist
  exact List.perm_singleton.mp ((List.perm_ext_iff_of_nodup hnodup (List.nodup_singleton c)).mpr
    fun d => ⟨fun hd => List.mem_singleton.mpr (hall d hd),
      fun hd => List.mem_singleton.mp hd ▸ hc⟩)

/-- The peers of a cluster that renders under its own prefix are its group. -/
theorem peers_perm_group (halone : InheritsAlone file base) (hc : c ∈ file.group base target)
    (heq : file.runnerNamePrefix c.2 = c.2.ownPrefix) :
    (file.peers base target).Perm ((file.group base target).map (·.1)) := by
  obtain ⟨hmem, hdeploys, rfl⟩ := mem_group.mp hc
  refine (List.mergeSort_perm _ _).trans (List.Perm.of_eq ?_)
  congr 1
  refine List.filter_congr fun d hd => ?_
  by_cases hddeploys : d.2.deploys base = true
  · rw [hddeploys, Bool.true_and, Bool.true_and]
    by_cases hdeq : file.runnerNamePrefix d.2 = d.2.ownPrefix
    · rw [hdeq]
    · have hdc : c.1 ≠ d.1 := fun hid => hdeq (eq_of_id hmem hd hid ▸ heq)
      obtain ⟨hempty, hother⟩ := halone d hd hddeploys hdeq c hmem hdeploys hdc
      rw [ownPrefix_of_ne hdeq, heq]
      simp [hempty.symm, hother.symm]
  · simp [hddeploys]

/-- A cluster that does not share its queue as its group does. -/
theorem not_splitsQueue_of_ne (hc : c ∈ file.group base target)
    (hne : file.runnerNamePrefix c.2 ≠ c.2.ownPrefix) (hd : d ∈ file.group base target)
    (hdc : d ≠ c) : ¬ SplitsQueue file base target := by
  intro hsplits
  obtain ⟨hmem, hdeploys, -⟩ := mem_group.mp hc
  obtain ⟨m, hm, hbase⟩ := exists_module hdeploys
  have hone := hsplits.count c hc m hm hbase
  rw [share_of_ne hmem hdeploys hbase hne] at hone
  obtain ⟨x, hx⟩ := List.length_eq_one_iff.mp hone.symm
  rw [hx, List.mem_singleton] at hc hd
  exact hdc (hd.trans hc.symm)

/-- A cluster that counts a peer which renders under another prefix. -/
theorem not_splitsQueue_of_peer (hc : c ∈ file.clusters) (hcdeploys : c.2.deploys base = true)
    (hne : file.runnerNamePrefix c.2 ≠ c.2.ownPrefix) (hd : d ∈ file.group base "")
    (hown : file.runnerNamePrefix d.2 = d.2.ownPrefix) : ¬ SplitsQueue file base "" := by
  intro hsplits
  obtain ⟨hdmem, hddeploys, hdtarget⟩ := mem_group.mp hd
  obtain ⟨m, hm, hbase⟩ := exists_module hddeploys
  have hcount := hsplits.count d hd m hm hbase
  rw [share_of_eq hdmem hddeploys hbase hown, hdtarget] at hcount
  -- The group and the cluster that inherits are all peers, and the latter is not in the group.
  have hsub : c.1 :: (file.group base "").map (·.1) ⊆ file.peers base "" := by
    intro id hid
    rw [mem_peers]
    rcases List.mem_cons.mp hid with rfl | hid
    · exact ⟨c.2, hc, hcdeploys, ownPrefix_of_ne hne⟩
    · obtain ⟨x, hx, rfl⟩ := List.mem_map.mp hid
      obtain ⟨hxmem, hxdeploys, hxtarget⟩ := mem_group.mp hx
      refine ⟨x.2, hxmem, hxdeploys, ?_⟩
      by_cases hxown : file.runnerNamePrefix x.2 = x.2.ownPrefix
      · exact hxown.symm.trans hxtarget
      · exact ownPrefix_of_ne hxown
  have hnodup : (c.1 :: (file.group base "").map (·.1)).Nodup := by
    refine List.nodup_cons.mpr ⟨fun hid => ?_, file.ids.sublist (List.filter_sublist.map _)⟩
    obtain ⟨x, hx, hid⟩ := List.mem_map.mp hid
    obtain ⟨hxmem, -, hxtarget⟩ := mem_group.mp hx
    obtain rfl := eq_of_id hxmem hc hid
    exact hne (hxtarget.trans (ownPrefix_of_ne hne).symm)
  have hle := (List.subperm_of_subset hnodup hsub).length_le
  rw [List.length_cons, List.length_map] at hle
  omega

/-- The shares of a group whose members all render under their own prefixes. -/
theorem splitsQueue_of_eq
    (hown : ∀ c ∈ file.group base target, file.runnerNamePrefix c.2 = c.2.ownPrefix)
    (hperm : file.group base target ≠ [] →
      (file.peers base target).Perm ((file.group base target).map (·.1))) :
    SplitsQueue file base target := by
  have hshare : ∀ c ∈ file.group base target, ∀ m, removesuffix m "-opt" = base →
      file.share c m = ((file.peers base target).idxOf c.1, (file.peers base target).length) := by
    intro c hc m hbase
    obtain ⟨hmem, hdeploys, htarget⟩ := mem_group.mp hc
    rw [share_of_eq hmem hdeploys hbase (hown c hc), htarget]
  have hpeer : ∀ c ∈ file.group base target, c.1 ∈ file.peers base target := fun c hc =>
    (hperm (List.ne_nil_of_mem hc)).mem_iff.mpr (List.mem_map_of_mem hc)
  refine ⟨fun c hc m _ hbase => ?_, fun c hc d hd m _ n _ hbase hbase' heq => ?_, fun i hi => ?_⟩
  · rw [hshare c hc m hbase, (hperm (List.ne_nil_of_mem hc)).length_eq, List.length_map]
  · rw [hshare c hc m hbase, hshare d hd n hbase'] at heq
    exact eq_of_id (mem_group.mp hc).1 (mem_group.mp hd).1
      ((List.idxOf_inj (hpeer c hc)).mp heq)
  · have hne : file.group base target ≠ [] := by
      rintro hnil
      simp [hnil] at hi
    have hlt : i < (file.peers base target).length := by
      rwa [(hperm hne).length_eq, List.length_map]
    obtain ⟨c, hc, hid⟩ := List.mem_map.mp ((hperm hne).mem_iff.mp (List.getElem_mem hlt))
    obtain ⟨m, hm, hbase⟩ := exists_module (mem_group.mp hc).2.1
    refine ⟨c, hc, m, hm, hbase, ?_⟩
    rw [hshare c hc m hbase, hid]
    exact nodup_peers.idxOf_getElem i hlt

end Shares

/-- Two clusters render under the prefix of the defaults, and both claim the whole queue. -/
def inheriting : ClustersFile where
  defaults := { arcRunners := some { runnerNamePrefix := some "mt-" } }
  clusters := [("east", { modules := ["arc-runners"] }), ("west", { modules := ["arc-runners"] })]
  ids := by decide

end CiInfra.Runners

import Tlcp.Lib.Merkle
import Tlcp.Lib.Octets

/-!
# Tlcp.Sphincs.TreeHash

The Merkle trees of SPHINCS-Alpha: `treehashx1` makes a tree from its leaves
with one saved node a level, and `compute_root` climbs from a leaf along its
authentication path.  Both work in place on an address, of which they set the
height and the index for each node they make.

`treehashx1` returns the node `Merkle.node` defines by recursion, whatever leaf
it was asked for, and the path it leaves is the one `compute_root` needs.
-/

namespace Tlcp.Sphincs

open Octets

/-! ## addresses -/

/-- The bytes of a `uint32_t addr[8]`. -/
abbrev Addr := ℕ → UInt8

/-- Where a parameter set has the two fields of an address that are set for a node:
`SPX_OFFSET_TREE_HGT` and `SPX_OFFSET_TREE_INDEX`. -/
structure AddrLayout where
  treeHgt : ℕ
  treeIndex : ℕ

/-- `sm3_offsets.h`; `sha2_offsets.h` has the same. -/
def sm3Offsets : AddrLayout := ⟨17, 18⟩

variable (lay : AddrLayout)

def setTreeHeight (addr : Addr) (treeHeight : ℕ) : Addr :=
  Function.update addr lay.treeHgt (UInt8.ofNat treeHeight)

def setTreeIndex (addr : Addr) (treeIndex : ℕ) : Addr := fun i =>
  if lay.treeIndex ≤ i then ((putUint 4 treeIndex)[i - lay.treeIndex]?).getD (addr i) else addr i

/-- The address of a node. -/
def nodeAddr (addr : Addr) (height index : ℕ) : Addr :=
  setTreeIndex lay (setTreeHeight lay addr height) index

/-- Of the node before it an address keeps nothing. -/
theorem nodeAddr_nodeAddr (addr : Addr) (h i h' i' : ℕ) :
    nodeAddr lay (nodeAddr lay addr h i) h' i' = nodeAddr lay addr h' i' := by
  funext j
  simp only [nodeAddr, setTreeIndex, setTreeHeight, Function.update_apply]
  by_cases hj : lay.treeIndex ≤ j
  · by_cases hlt : j - lay.treeIndex < 4
    · simp [hj, hlt]
    · simp [hj, hlt]
      grind
  · simp [hj]
    grind

/-! ## the tree from its leaves -/

variable {Node Info : Type} (thash : Addr → Node → Node → Node)

/-- What `treehashx1` works on; the stack comes uninitialised. -/
structure TreeState (Node Info : Type) where
  stack : ℕ → Node
  authPath : ℕ → Node
  treeAddr : Addr
  info : Info

/-- A node of level `h` that is next to the way up from the leaf asked for goes on
the authentication path. -/
def TreeState.writePath (st : TreeState Node Info) (h internalIdx internalLeaf : ℕ)
    (current : Node) : TreeState Node Info :=
  if internalIdx ^^^ internalLeaf = 1 then
    { st with authPath := Function.update st.authPath h current }
  else st

/-- The inner loop of `treehashx1`, with the levels left to the top: the root, if
it comes there, and else the node is saved for its sibling. -/
def combine (idx maxIdx : ℕ) : ℕ → ℕ → ℕ → ℕ → ℕ → Node → TreeState Node Info →
    Option Node × TreeState Node Info
  | 0, _, _, _, _, current, st => (some current, st)
  | left + 1, h, internalIdx, internalLeaf, internalIdxOffset, current, st =>
    let st := st.writePath h internalIdx internalLeaf current
    if internalIdx &&& 1 = 0 ∧ idx < maxIdx then
      (none, { st with stack := Function.update st.stack h current })
    else
      let addr := nodeAddr lay st.treeAddr (h + 1)
        ((internalIdx / 2 + internalIdxOffset / 2) % 2 ^ 32)
      combine idx maxIdx left (h + 1) (internalIdx / 2) (internalLeaf / 2) (internalIdxOffset / 2)
        (thash addr (st.stack h) current) { st with treeAddr := addr }

variable (genLeaf : ℕ → Info → Node × Info) (leafIdx idxOffset treeHeight : ℕ)

/-- The outer loop of `treehashx1`, cut off after `fuel` leaves. -/
def treehashLoop : ℕ → ℕ → TreeState Node Info → Option (Node × TreeState Node Info)
  | 0, _, _ => none
  | fuel + 1, idx, st =>
    let (leaf, info) := genLeaf ((idx + idxOffset) % 2 ^ 32) st.info
    match combine lay thash idx (2 ^ treeHeight - 1) treeHeight 0 idx leafIdx idxOffset leaf
        { st with info } with
    | (some root, st) => some (root, st)
    | (none, st) => treehashLoop fuel (idx + 1) st

/-- The source's loop has no bound; `2 ^ treeHeight` leaves turn out to be enough. -/
def treehashx1 (st : TreeState Node Info) : Option (Node × TreeState Node Info) :=
  treehashLoop lay thash genLeaf leafIdx idxOffset treeHeight (2 ^ treeHeight) 0 st

/-- The buffer of `compute_root`: a node and its neighbour, in their order. -/
def ordered (leafIdx : ℕ) (node neighbour : Node) : Node × Node :=
  if leafIdx &&& 1 = 1 then (neighbour, node) else (node, neighbour)

/-- The loop of `compute_root` with the turns left, and its last iteration, which
has no neighbour to copy. -/
def computeRootLoop (authPath : ℕ → Node) : ℕ → ℕ → ℕ → ℕ → Node × Node → Addr → Node
  | 0, _, leafIdx, idxOffset, (left, right), addr =>
    thash (nodeAddr lay addr treeHeight ((leafIdx / 2 + idxOffset / 2) % 2 ^ 32)) left right
  | turns + 1, i, leafIdx, idxOffset, (left, right), addr =>
    let addr := nodeAddr lay addr (i + 1) ((leafIdx / 2 + idxOffset / 2) % 2 ^ 32)
    computeRootLoop authPath turns (i + 1) (leafIdx / 2) (idxOffset / 2)
      (ordered (leafIdx / 2) (thash addr left right) (authPath (i + 1))) addr

def computeRoot (leaf : Node) (authPath : ℕ → Node) (addr : Addr) : Node :=
  computeRootLoop lay thash treeHeight authPath (treeHeight - 1) 0 leafIdx idxOffset
    (ordered leafIdx leaf (authPath 0)) addr

/-! ## the tree it stands for -/

/-- How a node is made of its children: its address has its height and its index,
counted on from the offset. -/
def treeNode (addr : Addr) (height index : ℕ) (left right : Node) : Node :=
  thash (nodeAddr lay addr height (index + idxOffset / 2 ^ height)) left right

/-- What the generator keeps before leaf `k`. -/
def infoAt (info : Info) : ℕ → Info
  | 0 => info
  | k + 1 => (genLeaf (k + idxOffset) (infoAt info k)).2

/-- Leaf `k`, as the generator gives it after those before. -/
def leafAt (info : Info) (k : ℕ) : Node :=
  (genLeaf (k + idxOffset) (infoAt genLeaf idxOffset info k)).1

open Merkle

theorem TreeState.writePath_eq (st : TreeState Node Info) (h i l : ℕ) (current : Node) :
    st.writePath h i (l / 2 ^ h) current =
      { st with authPath := keep l i h current st.authPath } := by
  simp only [writePath, xor_eq_one_iff, keep]
  split <;> rfl

section

variable {lay thash genLeaf leafIdx idxOffset treeHeight} {addr : Addr} {leaf : ℕ → Node}
  {hash : ℕ → ℕ → Node → Node → Node} {idx t : ℕ}

/-- A node that is made above place `i` of level `t`. -/
theorem thash_shifted (hhash : hash = treeNode lay thash idxOffset addr) {a : Addr} {i : ℕ}
    (haddr : ∀ h j, nodeAddr lay a h j = nodeAddr lay addr h j) (hlt : i + idxOffset < 2 ^ 32) :
    thash (nodeAddr lay a (t + 1) ((i / 2 ^ t / 2 + idxOffset / 2 ^ t / 2) % 2 ^ 32)) =
      hash (t + 1) (i / 2 ^ (t + 1)) := by
  have hi : i / 2 ^ (t + 1) ≤ i := Nat.div_le_self ..
  have ho : idxOffset / 2 ^ (t + 1) ≤ idxOffset := Nat.div_le_self ..
  rw [haddr, Nat.div_div_eq_div_mul, Nat.div_div_eq_div_mul, ← pow_succ,
    Nat.mod_eq_of_lt (by omega), hhash]
  rfl

/-- The new leaf goes up as far as there is something left of it, and comes to
the top exactly if it is the last one. -/
theorem combine_spec (hhash : hash = treeNode lay thash idxOffset addr) {left : ℕ}
    (st : TreeState Node Info) (haddr : ∀ h i, nodeAddr lay st.treeAddr h i = nodeAddr lay addr h i)
    (hlt : idx + idxOffset < 2 ^ 32) (htop : t + left = treeHeight) (hidx : idx < 2 ^ treeHeight)
    (hfull : 2 ^ t ∣ idx + 1) (hsaved : Saved hash leaf idx t st.stack)
    (hpath : OnPath hash leaf leafIdx idx t st.authPath) :
    ∃ r st', combine lay thash idx (2 ^ treeHeight - 1) left t (idx / 2 ^ t) (leafIdx / 2 ^ t)
        (idxOffset / 2 ^ t) (node hash leaf t (idx / 2 ^ t)) st = (r, st') ∧
      st'.info = st.info ∧ (∀ h i, nodeAddr lay st'.treeAddr h i = nodeAddr lay addr h i) ∧
      if idx + 1 = 2 ^ treeHeight then
        r = some (node hash leaf treeHeight 0) ∧
          OnPath hash leaf leafIdx idx treeHeight st'.authPath
      else
        r = none ∧ Saved hash leaf (idx + 1) 0 st'.stack ∧
          OnPath hash leaf leafIdx (idx + 1) 0 st'.authPath := by
  induction left generalizing t st with
  | zero =>
    obtain rfl : t = treeHeight := htop
    have hlast : idx + 1 = 2 ^ t := Nat.le_antisymm hidx (Nat.le_of_dvd (by omega) hfull)
    refine ⟨_, _, rfl, rfl, haddr, ?_⟩
    rw [if_pos hlast, Nat.div_eq_of_lt hidx]
    exact ⟨rfl, hpath⟩
  | succ left ih =>
    have hkept := hpath.keep hfull
    rw [combine]
    simp only [TreeState.writePath_eq, Nat.and_one_is_mod]
    by_cases heven : idx / 2 ^ t % 2 = 0
    · -- a left child is not below the last place, where all are right children
      have hnot : idx + 1 ≠ 2 ^ treeHeight := by
        intro hlast
        have heven' := succ_div_mod_two (k := idx) (dvd_of_eq hlast.symm)
          (by omega : t < treeHeight)
        rw [succ_div_of_full hfull] at heven'
        omega
      rw [if_pos ⟨heven, by omega⟩]
      refine ⟨_, _, rfl, rfl, haddr, ?_⟩
      rw [if_neg hnot]
      exact ⟨rfl, hsaved.save hfull heven, hkept.stop hfull heven⟩
    · have hodd : idx / 2 ^ t % 2 = 1 := by omega
      rw [if_neg (by omega), thash_shifted hhash haddr hlt, hsaved.join hodd,
        Nat.div_div_eq_div_mul, Nat.div_div_eq_div_mul, Nat.div_div_eq_div_mul, ← pow_succ]
      refine ih _ ?_ (by omega) (full_of_odd hfull hodd) (fun u hu => hsaved u (by omega)) hkept
      intro h i
      rw [nodeAddr_nodeAddr, haddr]

/-- From `k` leaves to the root. -/
theorem treehashLoop_spec {info : Info} (hhash : hash = treeNode lay thash idxOffset addr)
    (hleaf : leaf = leafAt genLeaf idxOffset info) (hlt : 2 ^ treeHeight + idxOffset ≤ 2 ^ 32)
    {fuel k : ℕ} (st : TreeState Node Info) (hfuel : k + fuel = 2 ^ treeHeight) (hpos : 0 < fuel)
    (hinfo : st.info = infoAt genLeaf idxOffset info k)
    (haddr : ∀ h i, nodeAddr lay st.treeAddr h i = nodeAddr lay addr h i)
    (hsaved : Saved hash leaf k 0 st.stack) (hpath : OnPath hash leaf leafIdx k 0 st.authPath) :
    ∃ st', treehashLoop lay thash genLeaf leafIdx idxOffset treeHeight fuel k st =
        some (node hash leaf treeHeight 0, st') ∧
      OnPath hash leaf leafIdx (2 ^ treeHeight - 1) treeHeight st'.authPath := by
  induction fuel generalizing k st with
  | zero => omega
  | succ fuel ih =>
    obtain ⟨r, st', hrun, hinfo', haddr', hrest⟩ := combine_spec (t := 0) hhash
      { st with info := (genLeaf (k + idxOffset) st.info).2 } haddr
      (by omega : k + idxOffset < 2 ^ 32) (Nat.zero_add treeHeight) (by omega) (by simp) hsaved
      hpath
    have hnew : node hash leaf 0 k = (genLeaf (k + idxOffset) st.info).1 := by
      rw [node, hleaf, leafAt, hinfo]
    simp only [pow_zero, Nat.div_one, hnew] at hrun
    rw [treehashLoop]
    simp only [Nat.mod_eq_of_lt (by omega : k + idxOffset < 2 ^ 32), hrun]
    split at hrest
    · next hlast =>
      obtain ⟨rfl, hall⟩ := hrest
      refine ⟨st', rfl, ?_⟩
      rwa [← hlast, Nat.add_sub_cancel]
    · next hmore =>
      obtain ⟨rfl, hsaved', hpath'⟩ := hrest
      refine ih _ (by omega) (by omega) ?_ haddr' hsaved' hpath'
      rw [hinfo', hinfo, infoAt]

/-- One step up from level `t`, with the neighbour from the path. -/
theorem thash_path (hhash : hash = treeNode lay thash idxOffset addr) {a : Addr} {x : Node}
    (haddr : ∀ h i, nodeAddr lay a h i = nodeAddr lay addr h i)
    (hlt : leafIdx + idxOffset < 2 ^ 32) (hx : x = node hash leaf t (sibling (leafIdx / 2 ^ t))) :
    thash (nodeAddr lay a (t + 1) ((leafIdx / 2 ^ t / 2 + idxOffset / 2 ^ t / 2) % 2 ^ 32))
        (ordered (leafIdx / 2 ^ t) (node hash leaf t (leafIdx / 2 ^ t)) x).1
        (ordered (leafIdx / 2 ^ t) (node hash leaf t (leafIdx / 2 ^ t)) x).2 =
      node hash leaf (t + 1) (leafIdx / 2 ^ (t + 1)) := by
  have hjoin := join_node hash leaf t (leafIdx / 2 ^ t)
  rw [Nat.div_div_eq_div_mul, ← pow_succ, join, Nat.div_div_eq_div_mul, ← pow_succ] at hjoin
  rw [thash_shifted hhash haddr hlt, hx, ← hjoin, ordered, Nat.and_one_is_mod]
  split <;> rfl

/-- The way up from level `t` to the root. -/
theorem computeRootLoop_spec (hhash : hash = treeNode lay thash idxOffset addr) {turns : ℕ}
    {path : ℕ → Node} {a : Addr} (haddr : ∀ h i, nodeAddr lay a h i = nodeAddr lay addr h i)
    (hlt : leafIdx + idxOffset < 2 ^ 32) (htop : t + turns + 1 = treeHeight)
    (hpath : ∀ u < treeHeight, path u = node hash leaf u (sibling (leafIdx / 2 ^ u))) :
    computeRootLoop lay thash treeHeight path turns t (leafIdx / 2 ^ t) (idxOffset / 2 ^ t)
        (ordered (leafIdx / 2 ^ t) (node hash leaf t (leafIdx / 2 ^ t)) (path t)) a =
      node hash leaf treeHeight (leafIdx / 2 ^ treeHeight) := by
  induction turns generalizing t a with
  | zero =>
    obtain rfl : t + 1 = treeHeight := htop
    rw [computeRootLoop, thash_path hhash haddr hlt (hpath t (by omega))]
  | succ turns ih =>
    rw [computeRootLoop, thash_path hhash haddr hlt (hpath t (by omega)),
      Nat.div_div_eq_div_mul, Nat.div_div_eq_div_mul, ← pow_succ]
    refine ih ?_ (by omega)
    intro h i
    rw [nodeAddr_nodeAddr, haddr]

end

/-- For every leaf generator and every requested leaf, `treehashx1` returns the
Merkle root of the leaves, and from a leaf of the tree `compute_root` comes to
the same root along the path that `treehashx1` wrote for it. -/
theorem treehashx1_root (hheight : 1 ≤ treeHeight ∧ treeHeight ≤ 24)
    (hoffset : 2 ^ treeHeight ∣ idxOffset ∧ idxOffset < 2 ^ 32) (st : TreeState Node Info) :
    ∃ st', treehashx1 lay thash genLeaf leafIdx idxOffset treeHeight st =
        some (node (treeNode lay thash idxOffset st.treeAddr)
          (leafAt genLeaf idxOffset st.info) treeHeight 0, st') ∧
      ∀ addr, (∀ h i, nodeAddr lay addr h i = nodeAddr lay st.treeAddr h i) →
        leafIdx < 2 ^ treeHeight →
        computeRoot lay thash leafIdx idxOffset treeHeight
            (leafAt genLeaf idxOffset st.info leafIdx) st'.authPath addr =
          node (treeNode lay thash idxOffset st.treeAddr)
            (leafAt genLeaf idxOffset st.info) treeHeight 0 := by
  -- a multiple of the number of leaves leaves room for one more tree
  have hroom : 2 ^ treeHeight + idxOffset ≤ 2 ^ 32 := by
    obtain ⟨⟨m, rfl⟩, hlt⟩ := hoffset
    have hpow : 2 ^ 32 = 2 ^ treeHeight * 2 ^ (32 - treeHeight) := by
      rw [← pow_add]
      congr 1
      omega
    rw [hpow] at hlt ⊢
    have hm := Nat.lt_of_mul_lt_mul_left hlt
    calc 2 ^ treeHeight + 2 ^ treeHeight * m = 2 ^ treeHeight * (m + 1) := by ring
      _ ≤ 2 ^ treeHeight * 2 ^ (32 - treeHeight) := Nat.mul_le_mul_left _ hm
  have hnone : OnPath (treeNode lay thash idxOffset st.treeAddr) (leafAt genLeaf idxOffset st.info)
      leafIdx 0 0 st.authPath := by
    intro u hu
    simp [done] at hu
  obtain ⟨st', hrun, hpath⟩ := treehashLoop_spec rfl rfl hroom st (Nat.zero_add _)
    (Nat.two_pow_pos _) rfl (fun _ _ => rfl) (by intro u _ hu; simp at hu) hnone
  refine ⟨st', hrun, ?_⟩
  intro addr haddr hleaf
  have hup := computeRootLoop_spec (t := 0) rfl haddr
    (by omega : leafIdx + idxOffset < 2 ^ 32) (by omega : 0 + (treeHeight - 1) + 1 = treeHeight)
    (fun u hu => hpath.all (by omega) hleaf hu)
  rwa [pow_zero, Nat.div_one, Nat.div_one, Nat.div_eq_of_lt hleaf] at hup

/-- A generator that counts its leaves, in a tree of four with the offset 8. -/
theorem treehashx1_root_four :
    ∃ st', treehashx1 sm3Offsets (fun a l r => 100 * (a 17).toNat + 10 * (a 21).toNat + l + 2 * r)
        (fun i n => (i + n, n + 1)) 2 8 2 ⟨fun _ => 0, fun _ => 0, fun _ => 0, 0⟩ =
          some (768, st') ∧
      computeRoot sm3Offsets (fun a l r => 100 * (a 17).toNat + 10 * (a 21).toNat + l + 2 * r)
        2 8 2 12 st'.authPath (fun _ => 0) = 768 := by
  obtain ⟨st', hrun, hroot⟩ := treehashx1_root sm3Offsets
    (fun a l r => 100 * (a 17).toNat + 10 * (a 21).toNat + l + 2 * r)
    (fun i n => (i + n, n + 1)) 2 8 2 (by decide) (by decide)
    (⟨fun _ => 0, fun _ => 0, fun _ => 0, 0⟩ : TreeState ℕ ℕ)
  exact ⟨st', hrun, hroot (fun _ => 0) (fun _ _ => rfl) (by decide)⟩

/-! ## what a root binds -/

/-- The address of the node that `compute_root` makes of its pair at level `t`. -/
def climbAddr (addr : Addr) (t : ℕ) : Addr :=
  nodeAddr lay addr (t + 1) ((leafIdx / 2 ^ (t + 1) + idxOffset / 2 ^ (t + 1)) % 2 ^ 32)

/-- The pair that `compute_root` hashes at level `t`. -/
def climb (leaf : Node) (path : ℕ → Node) (addr : Addr) : ℕ → Node × Node
  | 0 => ordered leafIdx leaf (path 0)
  | t + 1 =>
    let (left, right) := climb leaf path addr t
    ordered (leafIdx / 2 ^ (t + 1)) (thash (climbAddr lay leafIdx idxOffset addr t) left right)
      (path (t + 1))

/-- What `compute_root` makes of its pair at level `t`. -/
def climbHash (leaf : Node) (path : ℕ → Node) (addr : Addr) (t : ℕ) : Node :=
  thash (climbAddr lay leafIdx idxOffset addr t) (climb lay thash leafIdx idxOffset leaf path addr t).1
    (climb lay thash leafIdx idxOffset leaf path addr t).2

theorem computeRootLoop_eq_climbHash {leaf : Node} {path : ℕ → Node} {addr a : Addr} {turns t : ℕ}
    (haddr : ∀ h i, nodeAddr lay a h i = nodeAddr lay addr h i) (htop : t + turns + 1 = treeHeight) :
    computeRootLoop lay thash treeHeight path turns t (leafIdx / 2 ^ t) (idxOffset / 2 ^ t)
        (climb lay thash leafIdx idxOffset leaf path addr t) a =
      climbHash lay thash leafIdx idxOffset leaf path addr (treeHeight - 1) := by
  have hstep : ∀ n : ℕ, n / 2 ^ t / 2 = n / 2 ^ (t + 1) := fun n => by
    rw [Nat.div_div_eq_div_mul, ← pow_succ]
  induction turns generalizing t a with
  | zero =>
    obtain rfl : t + 1 = treeHeight := htop
    rw [computeRootLoop, haddr, hstep, hstep]
    rfl
  | succ turns ih =>
    rw [computeRootLoop, haddr, hstep, hstep]
    refine ih (fun h i => ?_) (by omega) fun n => by rw [Nat.div_div_eq_div_mul, ← pow_succ]
    rw [nodeAddr_nodeAddr]

/-- `compute_root` is the climb to the top. -/
theorem computeRoot_eq_climbHash (hheight : 0 < treeHeight) (leaf : Node) (path : ℕ → Node)
    (addr : Addr) : computeRoot lay thash leafIdx idxOffset treeHeight leaf path addr =
      climbHash lay thash leafIdx idxOffset leaf path addr (treeHeight - 1) := by
  have h : computeRootLoop lay thash treeHeight path (treeHeight - 1) 0 (leafIdx / 2 ^ 0)
      (idxOffset / 2 ^ 0) (climb lay thash leafIdx idxOffset leaf path addr 0) addr = _ :=
    computeRootLoop_eq_climbHash lay thash leafIdx idxOffset treeHeight (fun _ _ => rfl) (by omega)
  rwa [pow_zero, Nat.div_one, Nat.div_one] at h

theorem ordered_inj {x y x' y' : Node} (h : ordered leafIdx x y = ordered leafIdx x' y') :
    x = x' ∧ y = y' := by
  unfold ordered at h
  split at h <;> simp_all

/-- At level `t` the two climbs hash different pairs, at one address, to one node. -/
def CollideAt (leaf leaf' : Node) (path path' : ℕ → Node) (addr : Addr) (t : ℕ) : Prop :=
  climb lay thash leafIdx idxOffset leaf path addr t ≠
      climb lay thash leafIdx idxOffset leaf' path' addr t ∧
    climbHash lay thash leafIdx idxOffset leaf path addr t =
      climbHash lay thash leafIdx idxOffset leaf' path' addr t

/-- Two climbs that meet at level `t` were the same up to there, or met before. -/
theorem climb_binds {leaf leaf' : Node} {path path' : ℕ → Node} {addr : Addr} {t : ℕ}
    (h : climbHash lay thash leafIdx idxOffset leaf path addr t =
      climbHash lay thash leafIdx idxOffset leaf' path' addr t) :
    (leaf = leaf' ∧ ∀ u ≤ t, path u = path' u) ∨
      ∃ u ≤ t, CollideAt lay thash leafIdx idxOffset leaf leaf' path path' addr u := by
  by_cases hpair : climb lay thash leafIdx idxOffset leaf path addr t =
      climb lay thash leafIdx idxOffset leaf' path' addr t
  · induction t with
    | zero =>
      obtain ⟨hleaf, hfirst⟩ := ordered_inj _ hpair
      refine .inl ⟨hleaf, fun u hu => ?_⟩
      obtain rfl : u = 0 := by omega
      exact hfirst
    | succ t ih =>
      obtain ⟨hbelow, hlast⟩ := ordered_inj _ hpair
      by_cases hpair' : climb lay thash leafIdx idxOffset leaf path addr t =
          climb lay thash leafIdx idxOffset leaf' path' addr t
      · obtain ⟨hleaf, hpath⟩ | ⟨u, hu, hcoll⟩ := ih hbelow hpair'
        · refine .inl ⟨hleaf, fun u hu => ?_⟩
          obtain rfl | hlt : u = t + 1 ∨ u ≤ t := by omega
          · exact hlast
          · exact hpath u hlt
        · exact .inr ⟨u, by omega, hcoll⟩
      · exact .inr ⟨t, by omega, hpair', hbelow⟩
  · exact .inr ⟨t, Nat.le_refl t, hpair, h⟩

/-- **Binding**: whoever opens a root twice at one index has opened it to one leaf
along one path, or the two climbs collide: at some level below the root they hash
different pairs to one node, at the address of that node. -/
theorem computeRoot_binds {leaf leaf' : Node} {path path' : ℕ → Node} {addr : Addr}
    (hheight : 0 < treeHeight)
    (h : computeRoot lay thash leafIdx idxOffset treeHeight leaf path addr =
      computeRoot lay thash leafIdx idxOffset treeHeight leaf' path' addr) :
    (leaf = leaf' ∧ ∀ u < treeHeight, path u = path' u) ∨
      ∃ t < treeHeight, CollideAt lay thash leafIdx idxOffset leaf leaf' path path' addr t := by
  rw [computeRoot_eq_climbHash _ _ _ _ _ hheight, computeRoot_eq_climbHash _ _ _ _ _ hheight] at h
  obtain ⟨hleaf, hpath⟩ | ⟨t, ht, hcoll⟩ := climb_binds lay thash leafIdx idxOffset h
  · exact .inl ⟨hleaf, fun u hu => hpath u (by omega)⟩
  · exact .inr ⟨t, by omega, hcoll⟩

/-- A hash that adds, in a tree of height 2: the second opening has another leaf and
another neighbour of it, and the two climbs collide. -/
theorem computeRoot_binds_add :
    ∃ t < 2, CollideAt sm3Offsets (fun _ l r => l + r) 1 0 4 2 (fun u => u + 3)
      (fun u => if u = 0 then 5 else u + 3) (fun _ => 0) t := by
  have h : computeRoot sm3Offsets (fun _ l r => l + r) 1 0 2 4 (fun u => u + 3) (fun _ => 0) =
      computeRoot sm3Offsets (fun _ l r => l + r) 1 0 2 2 (fun u => if u = 0 then 5 else u + 3)
        (fun _ => 0) := rfl
  exact (computeRoot_binds sm3Offsets _ 1 0 2 (by decide) h).resolve_left (by simp)

end Tlcp.Sphincs

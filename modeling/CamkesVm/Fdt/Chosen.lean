import CamkesVm.ArmMemory.State
import Mathlib.Algebra.Order.Ring.Nat
import Mathlib.Tactic.NormNum

/-!
# The chosen node

An Arm guest finds its boot arguments in the node `chosen` of its device tree.  Where the VMM
generates the tree, `fdt_generate_chosen_node` adds the node: with the path of the console, if one
is configured, and with the boot arguments, to which it appends the number of processors.

It computes how long the text can get and asks `calloc` for a buffer.  If there is none it returns
`err`, which has the result of the call before: zero, if the path of the console has been stored,
and whatever was on the stack, if there is no path.  `zero_iff_complete_iff` says that this is all
that can go wrong; `load_vm_images` boots a guest without arguments then.

## What is here

* `Tree`, `Answers` — the tree as far as this node goes, and what the functions of the library and
  `calloc` answer. They fail with the errors they like, and what was on the stack is one of the
  answers.
* `addSubnode`, `appendpropString` — two functions of the library, which do what they say unless
  they are to fail.
* `snprintf`, `updatedBootargs`, `updatedBootargsLen` — the text, and how long it is thought to be.
* `storeBootargs`, `fdtGenerateChosenNode` — the function, with the part at its end separate,
  because it is reached in two ways.
* `Complete`, `Misreports` — what success should mean, and when it does not.
* `snprintf_updatedBootargs` — the buffer has room for every number of processors, so nothing is cut
  off; the length has to be an `int`, or `snprintf` itself fails.
* `zero_iff_complete_iff` — a result of zero and a complete node are the same thing exactly where
  `Misreports` does not hold.
-/

set_option autoImplicit false

namespace CamkesVm
namespace Fdt

/-- A `char`. -/
abbrev Byte := BitVec 8

/-- The characters of a text. -/
def text (s : String) : List Byte := s.toList.map fun c ↦ BitVec.ofNat 8 c.toNat

/-- The greatest `int`. -/
abbrev intMax : ℕ := 2 ^ 31 - 1

/-! ## The tree -/

/-- The properties of a node, by name. -/
abbrev Node := String → Option (List Byte)

/-- The chosen node that has been added to the tree, if it has. -/
abbrev Tree := Option Node

/-- What is answered during a call. -/
structure Answers where
  /-- What `fdt_path_offset` returns for the root. -/
  rootOffset : ℤ
  /-- What `fdt_add_subnode` returns, if the root is found: the offset of the node or an error.  It
  is an error where there is a node of that name. -/
  addSubnode : ℤ
  /-- What `fdt_appendprop_string` returns for `stdout-path`, if it gets a node. -/
  stdoutPath : ℤ
  /-- What it returns for `linux,stdout-path`. -/
  linuxStdoutPath : ℤ
  /-- What it returns for `bootargs`. -/
  bootargs : ℤ
  /-- `calloc` succeeds. -/
  calloc : Bool
  /-- What is on the stack where `err` is. -/
  err : ℤ

/-- `-FDT_ERR_BADOFFSET`, for an offset that is that of no node. -/
def badOffset : ℤ := -4

/-- `fdt_add_subnode`: the offset, or an error, and the tree. -/
def addSubnode (tree : Tree) (parent answer : ℤ) : ℤ × Tree :=
  if parent < 0 then (badOffset, tree)
  else if answer < 0 then (answer, tree)
  else (answer, some fun _ ↦ none)

/-- `fdt_appendprop_string`: zero, or an error, and the tree.  The property gets the text with the
NUL at its end. -/
def appendpropString (tree : Tree) (node : ℤ) (name : String) (value : List Byte) (answer : ℤ) :
    ℤ × Tree :=
  if node < 0 then (badOffset, tree)
  else if answer ≠ 0 then (answer, tree)
  else (0, tree.map fun props ↦
    Function.update props name (some ((props name).getD [] ++ (value ++ [0]))))

/-! ## The function -/

/-- `snprintf` into a buffer of `size` bytes: what it returns, and the text in the buffer.  The
result is negative if the length is no `int`. -/
def snprintf (size : ℕ) (full : List Byte) : ℤ × List Byte :=
  if intMax < full.length then (-1, []) else (full.length, full.take (size - 1))

/-- The boot arguments of the guest: those given, and the number of processors. -/
def updatedBootargs (bootargs : List Byte) (maxcpus : BitVec 32) : List Byte :=
  bootargs ++ text " maxcpus=" ++ text (Nat.repr maxcpus.toNat)

/-- `updated_bootargs_len`. -/
def updatedBootargsLen (w : ℕ) (bootargs : List Byte) : BitVec w :=
  BitVec.ofNat w bootargs.length + 9 + (3 * 4 + 1)

/-- The part of `fdt_generate_chosen_node` that stores the boot arguments, in the node `this`. -/
def storeBootargs (w : ℕ) (bootargs : List Byte) (maxcpus : BitVec 32) (A : Answers)
    (this err : ℤ) (tree : Tree) : ℤ × Tree :=
  if !A.calloc then (err, tree)
  else
    let size := (updatedBootargsLen w bootargs).toNat
    let (res, updated) := snprintf size (updatedBootargs bootargs maxcpus)
    if res < 0 then (-1, tree)
    else
      let (err, tree) := appendpropString tree this "bootargs" updated A.bootargs
      if err ≠ 0 then (err, tree) else (0, tree)

/-- `fdt_generate_chosen_node`: what it returns, and the tree.  The path is `none` for `NULL`. -/
def fdtGenerateChosenNode (w : ℕ) (stdoutPath : Option (List Byte)) (bootargs : List Byte)
    (maxcpus : BitVec 32) (A : Answers) : ℤ × Tree :=
  let (this, tree) := addSubnode none A.rootOffset A.addSubnode
  match stdoutPath with
  | none | some [] => storeBootargs w bootargs maxcpus A this A.err tree
  | some path =>
    let (err, tree) := appendpropString tree this "stdout-path" path A.stdoutPath
    if err ≠ 0 then (err, tree)
    else
      let (err, tree) := appendpropString tree this "linux,stdout-path" path A.linuxStdoutPath
      if err ≠ 0 then (err, tree)
      else storeBootargs w bootargs maxcpus A this err tree

/-! ## Complete boot arguments -/

/-- There is a chosen node, with all that it is to have. -/
def Complete (stdoutPath : Option (List Byte)) (bootargs : List Byte) (maxcpus : BitVec 32)
    (tree : Tree) : Prop :=
  ∃ props, tree = some props ∧
    (∀ path ∈ stdoutPath, path ≠ [] →
      props "stdout-path" = some (path ++ [0]) ∧ props "linux,stdout-path" = some (path ++ [0])) ∧
    props "bootargs" = some (updatedBootargs bootargs maxcpus ++ [0])

/-- There is a path of the console. -/
def HasPath (stdoutPath : Option (List Byte)) : Prop := ∃ path ∈ stdoutPath, path ≠ []

/-- The node is added, and both properties for the path are stored. -/
def Answers.Stores (A : Answers) : Prop :=
  0 ≤ A.rootOffset ∧ 0 ≤ A.addSubnode ∧ A.stdoutPath = 0 ∧ A.linuxStdoutPath = 0

/-- The function reports success without the boot arguments: there is no memory for them, and `err`
is zero, left by the properties for the path or by chance. -/
def Misreports (stdoutPath : Option (List Byte)) (A : Answers) : Prop :=
  A.calloc = false ∧ (HasPath stdoutPath ∧ A.Stores ∨ ¬ HasPath stdoutPath ∧ A.err = 0)

/-! ## The buffer -/

theorem length_text (s : String) : (text s).length = s.toList.length := List.length_map _

/-- A number of 32 bits has at most ten digits. -/
theorem length_updatedBootargs_le (bootargs : List Byte) (maxcpus : BitVec 32) :
    (updatedBootargs bootargs maxcpus).length ≤ bootargs.length + 19 := by
  have hdigits : (text (Nat.repr maxcpus.toNat)).length ≤ 10 := by
    rw [length_text, String.length_toList]
    have hlt := maxcpus.isLt
    exact (Nat.length_repr_le_iff (by omega)).2 (by omega)
  have hconst : (text " maxcpus=").length = 9 := by decide
  rw [updatedBootargs, List.length_append, List.length_append, hconst]
  omega

theorem updatedBootargsLen_eq (w : ℕ) (bootargs : List Byte) :
    updatedBootargsLen w bootargs = BitVec.ofNat w (bootargs.length + 22) := by
  change BitVec.ofNat w bootargs.length + BitVec.ofNat w 9 +
    (BitVec.ofNat w 3 * BitVec.ofNat w 4 + BitVec.ofNat w 1) = _
  rw [← BitVec.ofNat_mul, ← BitVec.ofNat_add, ← BitVec.ofNat_add, ← BitVec.ofNat_add]

/-- **The buffer is long enough.** -/
theorem snprintf_updatedBootargs (arch : ArmMemory.Arch) {bootargs : List Byte}
    {maxcpus : BitVec 32} (hshort : (updatedBootargs bootargs maxcpus).length ≤ intMax) :
    snprintf (updatedBootargsLen arch.wordBits bootargs).toNat (updatedBootargs bootargs maxcpus) =
      (((updatedBootargs bootargs maxcpus).length : ℤ), updatedBootargs bootargs maxcpus) := by
  have hle := length_updatedBootargs_le bootargs maxcpus
  have hargs : bootargs.length ≤ (updatedBootargs bootargs maxcpus).length := by
    rw [updatedBootargs, List.append_assoc, List.length_append]
    omega
  have hmax : intMax + 22 < 2 ^ arch.wordBits := by cases arch <;> decide
  have hsize : (updatedBootargsLen arch.wordBits bootargs).toNat = bootargs.length + 22 := by
    rw [updatedBootargsLen_eq, BitVec.toNat_ofNat, Nat.mod_eq_of_lt (by omega)]
  rw [snprintf, if_neg (by omega), hsize, List.take_of_length_le (by omega)]

/-! ## Storing the boot arguments -/

/-- The node is there without boot arguments but with the rest; or there is no node. -/
inductive Ready (stdoutPath : Option (List Byte)) : ℤ → Tree → Prop
  /-- The node could not be added. -/
  | noNode {this : ℤ} (hthis : this < 0) : Ready stdoutPath this none
  /-- The node has been added. -/
  | node {this : ℤ} {props : Node} (hthis : 0 ≤ this)
      (hpath : ∀ path ∈ stdoutPath, path ≠ [] →
        props "stdout-path" = some (path ++ [0]) ∧ props "linux,stdout-path" = some (path ++ [0]))
      (hbootargs : props "bootargs" = none) : Ready stdoutPath this (some props)

section

variable {stdoutPath : Option (List Byte)} {bootargs : List Byte} {maxcpus : BitVec 32}
  {this : ℤ} {tree : Tree}

/-- Without boot arguments nothing is complete. -/
theorem not_complete_of_none (h : ∀ props ∈ tree, props "bootargs" = none) :
    ¬ Complete stdoutPath bootargs maxcpus tree := by
  rintro ⟨props, rfl, -, hbootargs⟩
  exact nomatch (h props rfl).symm.trans hbootargs

theorem Ready.not_complete (h : Ready stdoutPath this tree) :
    ¬ Complete stdoutPath bootargs maxcpus tree := by
  refine not_complete_of_none fun props hprops ↦ ?_
  cases h with
  | noNode => exact nomatch hprops
  | node _ _ hnone => exact Option.some.inj hprops ▸ hnone

theorem appendpropString_of_neg (hthis : this < 0) (name : String) (value : List Byte)
    (answer : ℤ) : appendpropString tree this name value answer = (badOffset, tree) :=
  if_pos hthis

theorem appendpropString_of_ne {answer : ℤ} (hthis : 0 ≤ this) (hanswer : answer ≠ 0)
    (name : String) (value : List Byte) :
    appendpropString tree this name value answer = (answer, tree) := by
  rw [appendpropString, if_neg (by omega), if_pos hanswer]

/-- A property that a node does not have is set. -/
theorem appendpropString_fresh {props : Node} {name : String} {answer : ℤ} (hthis : 0 ≤ this)
    (hanswer : answer = 0) (hfresh : props name = none) (value : List Byte) :
    appendpropString (some props) this name value answer =
      (0, some (Function.update props name (some (value ++ [0])))) := by
  rw [appendpropString, if_neg (by omega), if_neg (not_not.2 hanswer), Option.map_some, hfresh]
  rfl

theorem storeBootargs_of_long {w : ℕ} {A : Answers} (hcalloc : A.calloc = true)
    (hlong : intMax < (updatedBootargs bootargs maxcpus).length) (err : ℤ) :
    storeBootargs w bootargs maxcpus A this err tree = (-1, tree) := by
  simp only [storeBootargs, hcalloc, snprintf, if_pos hlong]
  rfl

/-- A text that is not cut off goes to the tree. -/
theorem storeBootargs_of_short (arch : ArmMemory.Arch) {A : Answers} (hcalloc : A.calloc = true)
    (hshort : (updatedBootargs bootargs maxcpus).length ≤ intMax) (err : ℤ) :
    storeBootargs arch.wordBits bootargs maxcpus A this err tree =
      appendpropString tree this "bootargs" (updatedBootargs bootargs maxcpus) A.bootargs := by
  have hres : ¬ (((updatedBootargs bootargs maxcpus).length : ℤ) < 0) := by omega
  simp only [storeBootargs, hcalloc, snprintf_updatedBootargs arch hshort, if_neg hres]
  rw [if_neg (by decide)]
  split
  · rfl
  · rename_i hzero
    rw [← not_not.1 hzero]

/-- **Where there is memory, the result is right.** -/
theorem storeBootargs_of_calloc (arch : ArmMemory.Arch) {A : Answers} (hcalloc : A.calloc = true)
    (h : Ready stdoutPath this tree) (err : ℤ) :
    (storeBootargs arch.wordBits bootargs maxcpus A this err tree).1 = 0 ↔
      Complete stdoutPath bootargs maxcpus
        (storeBootargs arch.wordBits bootargs maxcpus A this err tree).2 := by
  rcases Nat.lt_or_ge intMax (updatedBootargs bootargs maxcpus).length with hlong | hshort
  · rw [storeBootargs_of_long hcalloc hlong]
    exact iff_of_false (by norm_num) h.not_complete
  rw [storeBootargs_of_short arch hcalloc hshort]
  cases h with
  | noNode hthis =>
    rw [appendpropString_of_neg hthis]
    exact iff_of_false (by norm_num [badOffset]) nofun
  | @node props hthis hpath hbootargs =>
    by_cases hanswer : A.bootargs = 0
    · rw [appendpropString_fresh hthis hanswer hbootargs]
      refine iff_of_true rfl ⟨_, rfl, fun path hmem hne ↦ ?_, Function.update_self ..⟩
      rw [Function.update_of_ne (by decide), Function.update_of_ne (by decide)]
      exact hpath path hmem hne
    · rw [appendpropString_of_ne hthis hanswer]
      exact iff_of_false hanswer (Ready.node hthis hpath hbootargs).not_complete

/-- **When storing the boot arguments reports right.** -/
theorem storeBootargs_iff (arch : ArmMemory.Arch) {A : Answers} (h : Ready stdoutPath this tree)
    (err : ℤ) :
    ((storeBootargs arch.wordBits bootargs maxcpus A this err tree).1 = 0 ↔
      Complete stdoutPath bootargs maxcpus
        (storeBootargs arch.wordBits bootargs maxcpus A this err tree).2) ↔
      ¬ (A.calloc = false ∧ err = 0) := by
  cases hcalloc : A.calloc with
  | true => exact iff_of_true (storeBootargs_of_calloc arch hcalloc h err) nofun
  | false =>
    have hfails : storeBootargs arch.wordBits bootargs maxcpus A this err tree = (err, tree) := by
      rw [storeBootargs, hcalloc]
      rfl
    rw [hfails, iff_false_right h.not_complete, and_iff_right rfl]

/-- The node that `fdt_add_subnode` makes has no properties. -/
theorem ready_addSubnode (hpath : ¬ HasPath stdoutPath) (parent answer : ℤ) :
    Ready stdoutPath (addSubnode none parent answer).1 (addSubnode none parent answer).2 := by
  rw [addSubnode]
  split
  · exact .noNode (by norm_num [badOffset])
  · split
    · rename_i hneg
      exact .noNode hneg
    · rename_i hnonneg
      exact .node (by omega) (fun path hmem hne ↦ absurd ⟨path, hmem, hne⟩ hpath) rfl

theorem addSubnode_of_nonneg {parent answer : ℤ} (hparent : 0 ≤ parent) (hanswer : 0 ≤ answer) :
    addSubnode none parent answer = (answer, some fun _ ↦ none) := by
  rw [addSubnode, if_neg (by omega), if_neg (by omega)]

theorem addSubnode_of_neg {parent answer : ℤ} (h : ¬ (0 ≤ parent ∧ 0 ≤ answer)) :
    ∃ this < 0, addSubnode none parent answer = (this, none) := by
  rw [addSubnode]
  split
  · exact ⟨badOffset, by norm_num [badOffset], rfl⟩
  · rw [if_pos (by omega)]
    exact ⟨answer, by omega, rfl⟩

/-- **With a path**, if all calls succeed, it comes to the boot arguments with `err` zero. -/
theorem fdtGenerateChosenNode_of_stores (w : ℕ) {path : List Byte} (hne : path ≠ []) {A : Answers}
    (h : A.Stores) (bootargs : List Byte) (maxcpus : BitVec 32) :
    ∃ this tree, Ready (some path) this tree ∧
      fdtGenerateChosenNode w (some path) bootargs maxcpus A =
        storeBootargs w bootargs maxcpus A this 0 tree := by
  obtain ⟨hroot, hadd, hfirst, hsecond⟩ := h
  cases path with
  | nil => exact absurd rfl hne
  | cons b rest =>
    rw [fdtGenerateChosenNode, addSubnode_of_nonneg hroot hadd]
    dsimp only
    rw [appendpropString_fresh hadd hfirst rfl]
    dsimp only
    rw [if_neg (not_not.2 rfl),
      appendpropString_fresh hadd hsecond (Function.update_of_ne (by decide) _ _)]
    dsimp only
    rw [if_neg (not_not.2 rfl)]
    refine ⟨_, _, .node hadd (fun path hmem _ ↦ ?_) ?_, rfl⟩
    · obtain rfl := Option.some.inj hmem
      rw [Function.update_of_ne (by decide), Function.update_self, Function.update_self]
      exact ⟨rfl, rfl⟩
    · rw [Function.update_of_ne (by decide), Function.update_of_ne (by decide)]

/-- **With a path**, if one of the calls fails, its error is returned and there are no boot
arguments. -/
theorem fdtGenerateChosenNode_of_not_stores (w : ℕ) {path : List Byte} (hne : path ≠ [])
    {A : Answers} (h : ¬ A.Stores) (bootargs : List Byte) (maxcpus : BitVec 32) :
    (fdtGenerateChosenNode w (some path) bootargs maxcpus A).1 ≠ 0 ∧
      ∀ props ∈ (fdtGenerateChosenNode w (some path) bootargs maxcpus A).2,
        props "bootargs" = none := by
  cases path with
  | nil => exact absurd rfl hne
  | cons b rest =>
    rw [fdtGenerateChosenNode]
    by_cases hadd : 0 ≤ A.rootOffset ∧ 0 ≤ A.addSubnode
    swap
    · obtain ⟨this, hthis, hnone⟩ := addSubnode_of_neg hadd
      rw [hnone]
      dsimp only
      rw [appendpropString_of_neg hthis]
      exact ⟨by norm_num [badOffset], nofun⟩
    rw [addSubnode_of_nonneg hadd.1 hadd.2]
    dsimp only
    by_cases hfirst : A.stdoutPath = 0
    swap
    · rw [appendpropString_of_ne hadd.2 hfirst]
      dsimp only
      rw [if_pos hfirst]
      exact ⟨hfirst, fun props hprops ↦ Option.some.inj hprops ▸ rfl⟩
    have hsecond : A.linuxStdoutPath ≠ 0 := fun h0 ↦ h ⟨hadd.1, hadd.2, hfirst, h0⟩
    rw [appendpropString_fresh hadd.2 hfirst rfl]
    dsimp only
    rw [if_neg (not_not.2 rfl), appendpropString_of_ne hadd.2 hsecond]
    dsimp only
    rw [if_pos hsecond]
    refine ⟨hsecond, fun props hprops ↦ ?_⟩
    rw [← Option.some.inj hprops, Function.update_of_ne (by decide)]

end

/-- **When success means that the boot arguments are complete.**  The function returns zero exactly
if the chosen node has both properties for the path, if there is one, and the boot arguments with
the number of processors: unless there is no memory for these at a moment when `err` is zero. -/
theorem zero_iff_complete_iff (arch : ArmMemory.Arch) (stdoutPath : Option (List Byte))
    (bootargs : List Byte) (maxcpus : BitVec 32) (A : Answers) :
    ((fdtGenerateChosenNode arch.wordBits stdoutPath bootargs maxcpus A).1 = 0 ↔
      Complete stdoutPath bootargs maxcpus
        (fdtGenerateChosenNode arch.wordBits stdoutPath bootargs maxcpus A).2) ↔
      ¬ Misreports stdoutPath A := by
  by_cases hpath : HasPath stdoutPath
  · have hmisreports : Misreports stdoutPath A ↔ A.calloc = false ∧ A.Stores := by
      rw [Misreports, and_iff_right hpath, or_iff_left fun h ↦ h.1 hpath]
    rw [hmisreports]
    obtain ⟨path, hmem, hne⟩ := hpath
    obtain rfl := Option.mem_def.1 hmem
    by_cases hstores : A.Stores
    · obtain ⟨this, tree, hready, heq⟩ :=
        fdtGenerateChosenNode_of_stores arch.wordBits hne hstores bootargs maxcpus
      rw [heq, storeBootargs_iff arch hready 0, and_iff_left rfl, and_iff_left hstores]
    · obtain ⟨herr, hnone⟩ :=
        fdtGenerateChosenNode_of_not_stores arch.wordBits hne hstores bootargs maxcpus
      exact iff_of_true (iff_of_false herr (not_complete_of_none hnone)) fun h ↦ hstores h.2
  · have hmisreports : Misreports stdoutPath A ↔ A.calloc = false ∧ A.err = 0 := by
      rw [Misreports, and_iff_right hpath, or_iff_right fun h ↦ hpath h.1]
    have hready := ready_addSubnode hpath A.rootOffset A.addSubnode
    have heq : fdtGenerateChosenNode arch.wordBits stdoutPath bootargs maxcpus A =
        storeBootargs arch.wordBits bootargs maxcpus A
          (addSubnode none A.rootOffset A.addSubnode).1 A.err
          (addSubnode none A.rootOffset A.addSubnode).2 := by
      match stdoutPath, hpath with
      | none, _ => rfl
      | some [], _ => rfl
      | some (b :: rest), hpath => exact absurd ⟨b :: rest, rfl, List.cons_ne_nil b rest⟩ hpath
    rw [hmisreports, heq, storeBootargs_iff arch hready]

/-- Everything succeeds but `calloc`. -/
def noMemory : Answers where
  rootOffset := 0
  addSubnode := 100
  stdoutPath := 0
  linuxStdoutPath := 0
  bootargs := 0
  calloc := false
  err := 0xdead

/-- **No memory for the boot arguments**, after the path of the console has been stored: success is
reported. -/
theorem not_zero_iff_complete_noMemory :
    ¬ ∀ (arch : ArmMemory.Arch) (stdoutPath : Option (List Byte)) (bootargs : List Byte)
      (maxcpus : BitVec 32) (A : Answers),
      (fdtGenerateChosenNode arch.wordBits stdoutPath bootargs maxcpus A).1 = 0 ↔
        Complete stdoutPath bootargs maxcpus
          (fdtGenerateChosenNode arch.wordBits stdoutPath bootargs maxcpus A).2 := by
  intro h
  obtain ⟨props, hprops, -, hbootargs⟩ :=
    (h .aarch64 (some (text "/uart")) (text "quiet") 1 noMemory).1 (by decide)
  have hnone : (fdtGenerateChosenNode 64 (some (text "/uart")) (text "quiet") 1 noMemory).2.bind
      (fun props ↦ props "bootargs") = none := by decide
  change (fdtGenerateChosenNode 64 _ _ _ _).2 = some props at hprops
  rw [hprops, Option.bind_some, hbootargs] at hnone
  exact nomatch hnone

end Fdt
end CamkesVm

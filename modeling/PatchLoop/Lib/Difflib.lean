import Mathlib.Data.List.Dedup
import Mathlib.Tactic.Common
import PatchLoop.Lib.Sequences

/-!
# Unified diffs

The matcher of `difflib` and the unified diff that is made of what it finds. Two sequences are compared by
their longest common block, and then what is left of it and what is right of it. Elements that are frequent
in a long second sequence begin no block.
-/

namespace Difflib

variable {α : Type} [DecidableEq α]

/-! ### Matching blocks -/

structure Block where
  i : Nat
  j : Nat
  size : Nat
deriving DecidableEq

/-- The elements that more than one percent of a long sequence consists of. -/
def popular (b : List α) : List α :=
  if 200 ≤ b.length then b.dedup.filter fun x => b.length / 100 + 1 < b.count x else []

/-- `b2j.get(x, [])`, between two bounds -/
def positions (b : List α) (blo bhi : Nat) (x : α) : List Nat :=
  if x ∈ popular b then []
  else (List.range b.length).filter fun j => blo ≤ j ∧ j < bhi ∧ b[j]? = some x

/-- The best block so far, and the lengths of the blocks that end at the positions of one row. -/
structure Search where
  best : Block
  lengths : List (Nat × Nat) := []

/-- `j2lenget(j - 1, 0)` -/
def Search.lengthBefore (search : Search) (j : Nat) : Nat :=
  if j = 0 then 0 else (search.lengths.lookup (j - 1)).getD 0

/-- The inner loop of `find_longest_match`: a position that the row's element is at. -/
def Search.visit (previous : Search) (i : Nat) (row : Search) (j : Nat) : Search :=
  let k := previous.lengthBefore j + 1
  { best := if row.best.size < k then ⟨i + 1 - k, j + 1 - k, k⟩ else row.best
    lengths := (j, k) :: row.lengths }

/-- The outer loop of `find_longest_match`: one row. -/
def Search.row (a b : List α) (blo bhi : Nat) (search : Search) (i : Nat) : Search :=
  match a[i]? with
  | none => search
  | some x => (positions b blo bhi x).foldl (Search.visit search i) { best := search.best }

/-- The first `while` loop of `find_longest_match`. -/
def extendBack (a b : List α) (alo blo : Nat) : Nat → Nat → Nat → Block
  | i + 1, j + 1, size =>
      if alo < i + 1 ∧ blo < j + 1 ∧ a[i]? = b[j]? then extendBack a b alo blo i j (size + 1)
      else ⟨i + 1, j + 1, size⟩
  | i, j, size => ⟨i, j, size⟩

/-- The second `while` loop of `find_longest_match`, of at most so many steps. -/
def extendForward (a b : List α) (ahi bhi i j : Nat) : Nat → Nat → Nat
  | 0, size => size
  | steps + 1, size =>
      if i + size < ahi ∧ j + size < bhi ∧ a[i + size]? = b[j + size]? then
        extendForward a b ahi bhi i j steps (size + 1)
      else size

/-- `find_longest_match` -/
def findLongestMatch (a b : List α) (alo ahi blo bhi : Nat) : Block :=
  let rows := List.range' alo (ahi - alo)
  let found := (rows.foldl (Search.row a b blo bhi) { best := ⟨alo, blo, 0⟩ }).best
  let start := extendBack a b alo blo found.i found.j found.size
  { start with size := extendForward a b ahi bhi start.i start.j ahi start.size }

/-- The matching blocks in their order, of at most so many levels of search. -/
def blocksBetween (a b : List α) : Nat → Nat → Nat → Nat → Nat → List Block
  | 0, _, _, _, _ => []
  | levels + 1, alo, ahi, blo, bhi =>
      let found := findLongestMatch a b alo ahi blo bhi
      if found.size = 0 then []
      else
        (if alo < found.i ∧ blo < found.j then blocksBetween a b levels alo found.i blo found.j else [])
          ++ found ::
            (if found.i + found.size < ahi ∧ found.j + found.size < bhi then
              blocksBetween a b levels (found.i + found.size) ahi (found.j + found.size) bhi
            else [])

/-- Adjacent blocks made one, without empty ones. -/
def collapse : Block → List Block → List Block
  | current, [] => if current.size = 0 then [] else [current]
  | current, block :: rest =>
      if current.i + current.size = block.i ∧ current.j + current.size = block.j then
        collapse { current with size := current.size + block.size } rest
      else (if current.size = 0 then [] else [current]) ++ collapse block rest

/-- `get_matching_blocks` -/
def matchingBlocks (a b : List α) : List Block :=
  collapse ⟨0, 0, 0⟩ (blocksBetween a b (a.length + 1) 0 a.length 0 b.length)
    ++ [⟨a.length, b.length, 0⟩]

/-! ### Opcodes -/

inductive Tag where
  | replace
  | delete
  | insert
  | equal
deriving DecidableEq

structure Opcode where
  tag : Tag
  i1 : Nat
  i2 : Nat
  j1 : Nat
  j2 : Nat
deriving DecidableEq

/-- The opcode for what is between two blocks, if there is anything. -/
def changeOpcode (i ai j bj : Nat) : List Opcode :=
  if i < ai ∧ j < bj then [⟨.replace, i, ai, j, bj⟩]
  else if i < ai then [⟨.delete, i, ai, j, bj⟩]
  else if j < bj then [⟨.insert, i, ai, j, bj⟩]
  else []

def opcodesFrom : Nat → Nat → List Block → List Opcode
  | _, _, [] => []
  | i, j, block :: rest =>
      changeOpcode i block.i j block.j
        ++ (if block.size = 0 then []
          else [⟨.equal, block.i, block.i + block.size, block.j, block.j + block.size⟩])
        ++ opcodesFrom (block.i + block.size) (block.j + block.size) rest

/-- `get_opcodes` -/
def opcodes (a b : List α) : List Opcode := opcodesFrom 0 0 (matchingBlocks a b)

/-- The end of an opcode, with so much context. -/
def Opcode.lastOnes (code : Opcode) (n : Nat) : Opcode :=
  { code with i1 := max code.i1 (code.i2 - n), j1 := max code.j1 (code.j2 - n) }

/-- The beginning of an opcode, with so much context. -/
def Opcode.firstOnes (code : Opcode) (n : Nat) : Opcode :=
  { code with i2 := min code.i2 (code.i1 + n), j2 := min code.j2 (code.j1 + n) }

/-- A change of the elements that are equal. -/
def Opcode.onEqual (change : Opcode → Opcode) (code : Opcode) : Opcode :=
  if code.tag = .equal then change code else code

/-- The loop of `get_grouped_opcodes`, with the group so far. -/
def groupFrom (n : Nat) : List Opcode → List Opcode → List (List Opcode)
  | group, [] =>
      if group.isEmpty || (group.length = 1 && group.all (·.tag = .equal)) then [] else [group]
  | group, code :: rest =>
      if code.tag = .equal ∧ n + n < code.i2 - code.i1 then
        (group ++ [code.firstOnes n]) :: groupFrom n [code.lastOnes n] rest
      else groupFrom n (group ++ [code]) rest

/-- `get_grouped_opcodes` -/
def groupedOpcodes (a b : List α) (n : Nat) : List (List Opcode) :=
  let codes := opcodes a b
  let codes := if codes.isEmpty then [⟨.equal, 0, 1, 0, 1⟩] else codes
  let codes := codes.modifyHead (Opcode.onEqual (·.lastOnes n))
  let codes := codes.dropLast ++ (codes.getLast?.map (Opcode.onEqual (·.firstOnes n))).toList
  groupFrom n [] codes

/-! ### Lines of a diff -/

inductive Mark where
  | range
  | same
  | removed
  | added
deriving DecidableEq

/-- A line of a diff, without its mark. -/
structure DiffLine where
  mark : Mark
  text : List Char
deriving DecidableEq

/-- `_format_range_unified` -/
def formatRange (start stop : Nat) : String :=
  if stop - start = 1 then toString (start + 1)
  else if stop - start = 0 then s!"{start},0"
  else s!"{start + 1},{stop - start}"

def slice (lines : List (List Char)) (first last : Nat) : List (List Char) :=
  (lines.take last).drop first

def marked (mark : Mark) (lines : List (List Char)) : List DiffLine := lines.map (⟨mark, ·⟩)

/-- The lines of an opcode. -/
def Opcode.lines (a b : List (List Char)) (code : Opcode) : List DiffLine :=
  match code.tag with
  | .equal => marked .same (slice a code.i1 code.i2)
  | .replace => marked .removed (slice a code.i1 code.i2) ++ marked .added (slice b code.j1 code.j2)
  | .delete => marked .removed (slice a code.i1 code.i2)
  | .insert => marked .added (slice b code.j1 code.j2)

/-- The line with the ranges of a group, from its first opcode to its last one. -/
def rangeLine (first last : Opcode) : DiffLine where
  mark := .range
  text := s!"@@ -{formatRange first.i1 last.i2} +{formatRange first.j1 last.j2} @@\n".toList

/-- The lines of a group. -/
def groupLines (a b : List (List Char)) (group : List Opcode) : List DiffLine :=
  match group.head?, group.getLast? with
  | some first, some last => rangeLine first last :: group.flatMap (Opcode.lines a b)
  | _, _ => []

/-- The lines of `unified_diff` after its two headers. -/
def diffLines (a b : List (List Char)) : List DiffLine :=
  (groupedOpcodes a b 3).flatMap (groupLines a b)

/-- A line as it is written. -/
def DiffLine.written (line : DiffLine) : List Char :=
  match line.mark with
  | .range => line.text
  | .same => ' ' :: line.text
  | .removed => '-' :: line.text
  | .added => '+' :: line.text

/-- `"".join(unified_diff(a, b, fromfile, tofile))` -/
def unifiedDiff (a b : List (List Char)) (fromFile toFile : String) : List Char :=
  let lines := diffLines a b
  if lines.isEmpty then []
  else s!"--- {fromFile}\n+++ {toFile}\n".toList ++ lines.flatMap DiffLine.written

/-- The lines that a unified diff adds. -/
def addedTexts (a b : List (List Char)) : List (List Char) :=
  ((diffLines a b).filter (·.mark = .added)).map DiffLine.text

/-! ### The end of the second sequence -/

/-- The block ends in the second sequence where it may, or before. -/
def Block.EndsBy (bound : Nat) (block : Block) : Prop := block.j + block.size ≤ bound

section Bounds

variable {α : Type} [DecidableEq α] {a b : List α} {blo bhi : Nat}

theorem mem_positions {x : α} {j : Nat} (hmem : j ∈ positions b blo bhi x) : blo ≤ j ∧ j < bhi := by
  unfold positions at hmem
  split at hmem
  · cases hmem
  · have hkept := (List.mem_filter.mp hmem).2
    rw [decide_eq_true_eq] at hkept
    exact ⟨hkept.1, hkept.2.1⟩

/-- What a search may have found: a block up to the bound, and no block that is longer than what is before
its end. -/
structure Search.Within (bhi : Nat) (search : Search) : Prop where
  best : search.best.EndsBy bhi
  lengths : ∀ entry ∈ search.lengths, entry.2 ≤ entry.1 + 1

theorem Search.Within.lengthBefore_le {search : Search} (hwithin : search.Within bhi) (j : Nat) :
    search.lengthBefore j ≤ j := by
  unfold Search.lengthBefore
  split
  · exact Nat.zero_le j
  · cases hlookup : search.lengths.lookup (j - 1) with
    | none => exact Nat.zero_le j
    | some k =>
        obtain ⟨earlier, later, hlengths, -⟩ := List.lookup_eq_some_iff.mp hlookup
        have hentry := hwithin.lengths (j - 1, k) (by rw [hlengths]; simp)
        rw [Option.getD_some]
        omega

theorem Search.Within.visit {previous row : Search} (hprevious : previous.Within bhi)
    (hrow : row.Within bhi) (i : Nat) {j : Nat} (hj : j < bhi) :
    (previous.visit i row j).Within bhi := by
  have hk := hprevious.lengthBefore_le j
  constructor
  · unfold Search.visit
    dsimp only
    split
    · unfold Block.EndsBy
      dsimp only
      omega
    · exact hrow.best
  · intro entry hentry
    rcases List.mem_cons.mp hentry with rfl | hentry
    · exact Nat.succ_le_succ hk
    · exact hrow.lengths entry hentry

theorem Search.Within.row {search : Search} (hwithin : search.Within bhi) (i : Nat) :
    (search.row a b blo bhi i).Within bhi := by
  unfold Search.row
  split
  · exact hwithin
  · rename_i x hx
    have hvisits : ∀ (js : List Nat) (row : Search), (∀ j ∈ js, j < bhi) → row.Within bhi →
        (js.foldl (Search.visit search i) row).Within bhi := by
      intro js
      induction js with
      | nil => exact fun row hjs hrow => hrow
      | cons j rest ih =>
          intro row hjs hrow
          obtain ⟨hj, hrest⟩ := List.forall_mem_cons.mp hjs
          exact ih _ hrest (hwithin.visit hrow i hj)
    exact hvisits _ _ (fun j hj => (mem_positions hj).2)
      ⟨hwithin.best, fun entry hentry => absurd hentry List.not_mem_nil⟩

theorem extendBack_end (a b : List α) (alo blo i j size : Nat) :
    (extendBack a b alo blo i j size).j + (extendBack a b alo blo i j size).size = j + size := by
  fun_induction extendBack a b alo blo i j size with
  | case1 i j size hequal ih => omega
  | case2 => rfl
  | case3 => rfl

theorem extendForward_le (a b : List α) (ahi bhi i j steps size : Nat) (hend : j + size ≤ bhi) :
    j + extendForward a b ahi bhi i j steps size ≤ bhi := by
  fun_induction extendForward a b ahi bhi i j steps size with
  | case1 => exact hend
  | case2 size steps hequal ih => exact ih (by omega)
  | case3 => exact hend

theorem findLongestMatch_endsBy (a b : List α) {alo ahi blo bhi : Nat} (hbounds : blo ≤ bhi) :
    (findLongestMatch a b alo ahi blo bhi).EndsBy bhi := by
  have hrows : ∀ (rows : List Nat) (search : Search), search.Within bhi →
      (rows.foldl (Search.row a b blo bhi) search).Within bhi := by
    intro rows
    induction rows with
    | nil => exact fun search hsearch => hsearch
    | cons i rest ih => exact fun search hsearch => ih _ (hsearch.row i)
  have hfound := (hrows (List.range' alo (ahi - alo)) { best := ⟨alo, blo, 0⟩ }
    ⟨hbounds, fun entry hentry => absurd hentry List.not_mem_nil⟩).best
  unfold findLongestMatch Block.EndsBy
  refine extendForward_le a b ahi bhi _ _ ahi _ ?_
  rw [extendBack_end]
  exact hfound

theorem blocksBetween_endsBy (a b : List α) {levels alo ahi blo bhi : Nat} (hbounds : blo ≤ bhi) :
    ∀ block ∈ blocksBetween a b levels alo ahi blo bhi, block.EndsBy bhi := by
  induction levels generalizing alo ahi blo bhi with
  | zero => exact fun block hblock => absurd hblock List.not_mem_nil
  | succ levels ih =>
      have hfound : (findLongestMatch a b alo ahi blo bhi).EndsBy bhi :=
        findLongestMatch_endsBy a b hbounds
      intro block hblock
      rw [blocksBetween] at hblock
      generalize findLongestMatch a b alo ahi blo bhi = found at hfound hblock
      unfold Block.EndsBy at hfound
      split at hblock
      · cases hblock
      · rcases List.mem_append.mp hblock with hleft | hright
        · split at hleft
          · rename_i hsmaller
            have hended := ih (Nat.le_of_lt hsmaller.2) block hleft
            unfold Block.EndsBy at hended ⊢
            omega
          · cases hleft
        · rcases List.mem_cons.mp hright with rfl | hright
          · exact hfound
          · split at hright
            · rename_i hlarger
              exact ih (Nat.le_of_lt hlarger.2) block hright
            · cases hright

theorem mem_collapse {bound : Nat} {current : Block} {blocks : List Block}
    (hcurrent : current.EndsBy bound) (hblocks : ∀ block ∈ blocks, block.EndsBy bound) :
    ∀ block ∈ collapse current blocks, 0 < block.size ∧ block.EndsBy bound := by
  have hkept : ∀ current : Block, current.EndsBy bound →
      ∀ block ∈ (if current.size = 0 then [] else [current]), 0 < block.size ∧ block.EndsBy bound := by
    intro current hcurrent block hblock
    split at hblock
    · cases hblock
    · rename_i hsize
      rw [List.mem_singleton.mp hblock]
      exact ⟨Nat.pos_of_ne_zero hsize, hcurrent⟩
  induction blocks generalizing current with
  | nil => exact hkept current hcurrent
  | cons next rest ih =>
      obtain ⟨hnext, hrest⟩ := List.forall_mem_cons.mp hblocks
      rw [collapse]
      split
      · rename_i hadjacent
        refine ih ?_ hrest
        unfold Block.EndsBy at hnext ⊢
        dsimp only
        omega
      · intro block hblock
        rcases List.mem_append.mp hblock with hblock | hblock
        · exact hkept current hcurrent block hblock
        · exact ih hnext hrest block hblock

/-- An opcode that adds elements leaves others of the second sequence. -/
def Opcode.LeavesSome (bound : Nat) (code : Opcode) : Prop := code.tag ≠ .equal → code.j2 < bound

theorem changeOpcode_leavesSome {i ai j bj bound : Nat} (hbefore : bj < bound) :
    ∀ code ∈ changeOpcode i ai j bj, code.LeavesSome bound := by
  intro code hcode hchange
  unfold changeOpcode at hcode
  split at hcode
  · rw [List.mem_singleton.mp hcode]
    exact hbefore
  · split at hcode
    · rw [List.mem_singleton.mp hcode]
      exact hbefore
    · split at hcode
      · rw [List.mem_singleton.mp hcode]
        exact hbefore
      · cases hcode

theorem length_changeOpcode_le (i ai j bj : Nat) : (changeOpcode i ai j bj).length ≤ 1 := by
  unfold changeOpcode
  split
  · exact Nat.le_refl 1
  · split
    · exact Nat.le_refl 1
    · split
      · exact Nat.le_refl 1
      · exact Nat.zero_le 1

theorem opcodesFrom_leavesSome {bound : Nat} {last : Block} (hlast : last.size = 0)
    {blocks : List Block} (hblocks : ∀ block ∈ blocks, 0 < block.size ∧ block.EndsBy bound) (i j : Nat) :
    ∀ code ∈ (opcodesFrom i j (blocks ++ [last])).dropLast, code.LeavesSome bound := by
  induction blocks generalizing i j with
  | nil =>
      rw [List.nil_append, opcodesFrom, if_pos hlast, opcodesFrom, List.append_nil, List.append_nil]
      have hempty : (changeOpcode i last.i j last.j).dropLast = [] := by
        have hlength := length_changeOpcode_le i last.i j last.j
        rw [← List.length_eq_zero_iff, List.length_dropLast]
        omega
      rw [hempty]
      exact fun code hcode => absurd hcode List.not_mem_nil
  | cons block rest ih =>
      obtain ⟨⟨hsize, hends⟩, hrest⟩ := List.forall_mem_cons.mp hblocks
      rw [List.cons_append, opcodesFrom, if_neg (Nat.ne_of_gt hsize)]
      refine Sequence.forall_dropLast_append ?_ (ih hrest _ _)
      intro code hcode
      rcases List.mem_append.mp hcode with hcode | hcode
      · refine changeOpcode_leavesSome ?_ code hcode
        unfold Block.EndsBy at hends
        omega
      · rw [List.mem_singleton.mp hcode]
        exact fun hchange => absurd rfl hchange

/-- Only the last opcode adds the end of the second sequence. -/
theorem opcodes_leavesSome (a b : List α) :
    ∀ code ∈ (opcodes a b).dropLast, code.LeavesSome b.length :=
  opcodesFrom_leavesSome rfl
    (mem_collapse (Nat.zero_le _) (blocksBetween_endsBy a b (Nat.zero_le _))) 0 0

theorem Opcode.LeavesSome.onEqual {change : Opcode → Opcode} {bound : Nat} {code : Opcode}
    (htag : ∀ code, (change code).tag = code.tag) (hleaves : code.LeavesSome bound) :
    (code.onEqual change).LeavesSome bound := by
  unfold Opcode.onEqual
  split
  · rename_i hequal
    exact fun hchange => absurd ((htag code).trans hequal) hchange
  · exact hleaves

theorem groupFrom_leavesSome {bound n : Nat} {group codes : List Opcode}
    (hcodes : ∀ code ∈ (group ++ codes).dropLast, code.LeavesSome bound) :
    (∀ grouped ∈ (groupFrom n group codes).dropLast, ∀ code ∈ grouped, code.LeavesSome bound)
      ∧ ∀ grouped ∈ groupFrom n group codes, ∀ code ∈ grouped.dropLast, code.LeavesSome bound := by
  induction codes generalizing group with
  | nil =>
      rw [List.append_nil] at hcodes
      rw [groupFrom]
      split
      · exact ⟨fun grouped hgrouped => absurd hgrouped List.not_mem_nil,
          fun grouped hgrouped => absurd hgrouped List.not_mem_nil⟩
      · refine ⟨fun grouped hgrouped => absurd hgrouped List.not_mem_nil, ?_⟩
        intro grouped hgrouped
        rw [List.mem_singleton.mp hgrouped]
        exact hcodes
  | cons code rest ih =>
      rw [groupFrom]
      split
      · rename_i hsplit
        have hgroup : ∀ found ∈ group, found.LeavesSome bound := by
          intro found hfound
          rw [List.dropLast_append_of_ne_nil (List.cons_ne_nil code rest)] at hcodes
          exact hcodes found (List.mem_append_left _ hfound)
        have hfirst : (code.firstOnes n).LeavesSome bound :=
          fun hchange => absurd hsplit.1 hchange
        have hlast : (code.lastOnes n).LeavesSome bound :=
          fun hchange => absurd hsplit.1 hchange
        have hended : ∀ found ∈ group ++ [code.firstOnes n], found.LeavesSome bound := by
          intro found hfound
          rcases List.mem_append.mp hfound with hfound | hfound
          · exact hgroup found hfound
          · rw [List.mem_singleton.mp hfound]
            exact hfirst
        have hrest : ∀ found ∈ rest.dropLast, found.LeavesSome bound := by
          intro found hfound
          refine hcodes found ?_
          rw [List.dropLast_append_of_ne_nil (List.cons_ne_nil code rest),
            List.dropLast_cons_of_ne_nil (List.ne_nil_of_mem (List.mem_of_mem_dropLast hfound))]
          exact List.mem_append_right _ (List.mem_cons_of_mem code hfound)
        obtain ⟨hothers, hinner⟩ := @ih [code.lastOnes n]
          (Sequence.forall_dropLast_append (List.forall_mem_singleton.mpr hlast) hrest)
        constructor
        · intro grouped hgrouped
          by_cases hempty : groupFrom n [code.lastOnes n] rest = []
          · rw [hempty] at hgrouped
            cases hgrouped
          · rw [List.dropLast_cons_of_ne_nil hempty] at hgrouped
            rcases List.mem_cons.mp hgrouped with rfl | hgrouped
            · exact hended
            · exact hothers grouped hgrouped
        · intro grouped hgrouped
          rcases List.mem_cons.mp hgrouped with rfl | hgrouped
          · exact fun found hfound => hended found (List.mem_of_mem_dropLast hfound)
          · exact hinner grouped hgrouped
      · refine ih ?_
        rwa [List.append_assoc, List.singleton_append]

theorem groupedOpcodes_leavesSome (a b : List α) (n : Nat) :
    (∀ grouped ∈ (groupedOpcodes a b n).dropLast, ∀ code ∈ grouped, code.LeavesSome b.length)
      ∧ ∀ grouped ∈ groupedOpcodes a b n, ∀ code ∈ grouped.dropLast, code.LeavesSome b.length := by
  have hcodes := opcodes_leavesSome a b
  unfold groupedOpcodes
  generalize opcodes a b = codes at hcodes
  refine groupFrom_leavesSome ?_
  rw [List.nil_append]
  have hstart : ∀ code ∈ ((if codes.isEmpty then [⟨.equal, 0, 1, 0, 1⟩] else codes).modifyHead
      (Opcode.onEqual (·.lastOnes n))).dropLast, code.LeavesSome b.length := by
    intro code hcode
    split at hcode
    · cases hcode
    · cases codes with
      | nil => cases hcode
      | cons first rest =>
          rw [List.modifyHead_cons] at hcode
          by_cases hempty : rest = []
          · rw [hempty] at hcode
            cases hcode
          · rw [List.dropLast_cons_of_ne_nil hempty] at hcode hcodes
            rcases List.mem_cons.mp hcode with rfl | hcode
            · exact (hcodes first List.mem_cons_self).onEqual fun _ => rfl
            · exact hcodes code (List.mem_cons_of_mem first hcode)
  refine Sequence.forall_dropLast_append hstart ?_
  cases (List.modifyHead _ _).getLast? with
  | none => exact fun code hcode => absurd hcode List.not_mem_nil
  | some last => exact fun code hcode => absurd hcode List.not_mem_nil

end Bounds

section Added

variable {a b : List (List Char)}

theorem marked_added_mem {mark : Mark} {lines : List (List Char)} {line : DiffLine}
    (hmem : line ∈ marked mark lines) (hadded : line.mark = .added) : mark = .added ∧ line.text ∈ lines := by
  obtain ⟨text, htext, rfl⟩ := List.mem_map.mp hmem
  exact ⟨hadded, htext⟩

/-- What an opcode adds is of the second sequence. -/
theorem Opcode.added_mem {code : Opcode} {line : DiffLine} (hmem : line ∈ code.lines a b)
    (hadded : line.mark = .added) : code.tag ≠ .equal ∧ line.text ∈ slice b code.j1 code.j2 := by
  unfold Opcode.lines at hmem
  split at hmem
  · cases (marked_added_mem hmem hadded).1
  · rename_i htag
    rw [htag]
    rcases List.mem_append.mp hmem with hmem | hmem
    · cases (marked_added_mem hmem hadded).1
    · exact ⟨Tag.noConfusion, (marked_added_mem hmem hadded).2⟩
  · cases (marked_added_mem hmem hadded).1
  · rename_i htag
    rw [htag]
    exact ⟨Tag.noConfusion, (marked_added_mem hmem hadded).2⟩

theorem mem_slice {lines : List (List Char)} {first last : Nat} {text : List Char}
    (hmem : text ∈ slice lines first last) (hlast : last < lines.length) : text ∈ lines.dropLast := by
  rw [List.dropLast_eq_take]
  exact List.take_subset_take_left lines (Nat.le_sub_one_of_lt hlast) (List.mem_of_mem_drop hmem)

theorem mem_dropLast_slice {lines : List (List Char)} {first last : Nat} {text : List Char}
    (hmem : text ∈ (slice lines first last).dropLast) : text ∈ lines.dropLast := by
  unfold slice at hmem
  rw [List.dropLast_drop_eq_drop_dropLast, List.dropLast_take_eq_take_dropLast] at hmem
  exact List.mem_of_mem_take (List.mem_of_mem_drop hmem)

/-- Only the last line that an opcode adds may be the last one of the second sequence. -/
theorem Opcode.added_mem_dropLast (code : Opcode) :
    ∀ line ∈ (code.lines a b).dropLast, line.mark = .added → line.text ∈ b.dropLast := by
  have hremoved : ∀ lines : List (List Char), ∀ line ∈ marked .removed lines,
      line.mark = .added → line.text ∈ b.dropLast := by
    intro lines line hline hadded
    cases (marked_added_mem hline hadded).1
  have hadds : ∀ line ∈ (marked .added (slice b code.j1 code.j2)).dropLast,
      line.mark = .added → line.text ∈ b.dropLast := by
    intro line hline _
    unfold marked at hline
    rw [← List.map_dropLast] at hline
    obtain ⟨text, htext, rfl⟩ := List.mem_map.mp hline
    exact mem_dropLast_slice htext
  intro line hline hadded
  by_cases hequal : code.tag = .equal
  · exact absurd hequal (Opcode.added_mem (List.mem_of_mem_dropLast hline) hadded).1
  · unfold Opcode.lines at hline
    split at hline
    · contradiction
    · exact Sequence.forall_dropLast_append (hremoved _) hadds line hline hadded
    · exact hremoved _ line (List.mem_of_mem_dropLast hline) hadded
    · exact hadds line hline hadded

/-- If the last line of the second sequence is among the lines of a diff, then as its last one. -/
theorem added_mem_dropLast (a b : List (List Char)) :
    ∀ line ∈ (diffLines a b).dropLast, line.mark = .added → line.text ∈ b.dropLast := by
  have hall : ∀ code : Opcode, code.LeavesSome b.length → ∀ line ∈ code.lines a b,
      line.mark = .added → line.text ∈ b.dropLast := by
    intro code hleaves line hline hadded
    obtain ⟨hchange, hmem⟩ := Opcode.added_mem hline hadded
    exact mem_slice hmem (hleaves hchange)
  have hrange : ∀ first last : Opcode, ∀ line ∈ [rangeLine first last],
      line.mark = .added → line.text ∈ b.dropLast := by
    intro first last line hline hadded
    rw [List.mem_singleton.mp hline] at hadded
    cases hadded
  obtain ⟨hothers, hinner⟩ := groupedOpcodes_leavesSome a b 3
  unfold diffLines
  refine Sequence.forall_dropLast_flatMap
    (p := fun grouped => ∀ code ∈ grouped, code.LeavesSome b.length) ?_ ?_ hothers
  · intro grouped hgrouped line hline
    unfold groupLines at hline
    split at hline
    · rcases List.mem_cons.mp hline with rfl | hline
      · exact hrange _ _ _ (List.mem_singleton_self _)
      · obtain ⟨code, hcode, hline⟩ := List.mem_flatMap.mp hline
        exact hall code (hgrouped code hcode) line hline
    · cases hline
  · intro grouped hgrouped
    unfold groupLines
    split
    · rw [← List.singleton_append]
      exact Sequence.forall_dropLast_append (hrange _ _)
        (Sequence.forall_dropLast_flatMap hall (fun code _ => code.added_mem_dropLast)
          (hinner grouped hgrouped))
    · exact fun line hline => absurd hline List.not_mem_nil

theorem Opcode.lines_mem {code : Opcode} {line : DiffLine} (hmem : line ∈ code.lines a b) :
    line.mark ≠ .range ∧ (line.text ∈ a ∨ line.text ∈ b) := by
  have hmarked : ∀ (mark : Mark) (lines : List (List Char)) (first last : Nat), mark ≠ .range →
      (lines = a ∨ lines = b) → line ∈ marked mark (slice lines first last) →
      line.mark ≠ .range ∧ (line.text ∈ a ∨ line.text ∈ b) := by
    intro mark lines first last hmark hlines hline
    obtain ⟨text, htext, rfl⟩ := List.mem_map.mp hline
    have hin : text ∈ lines := List.mem_of_mem_take (List.mem_of_mem_drop htext)
    rcases hlines with rfl | rfl
    · exact ⟨hmark, Or.inl hin⟩
    · exact ⟨hmark, Or.inr hin⟩
  unfold Opcode.lines at hmem
  split at hmem
  · exact hmarked .same a _ _ Mark.noConfusion (Or.inl rfl) hmem
  · rcases List.mem_append.mp hmem with hmem | hmem
    · exact hmarked .removed a _ _ Mark.noConfusion (Or.inl rfl) hmem
    · exact hmarked .added b _ _ Mark.noConfusion (Or.inr rfl) hmem
  · exact hmarked .removed a _ _ Mark.noConfusion (Or.inl rfl) hmem
  · exact hmarked .added b _ _ Mark.noConfusion (Or.inr rfl) hmem

/-- A line of a diff has ranges, or it is one of the two sequences. -/
theorem diffLines_mem {line : DiffLine} (hmem : line ∈ diffLines a b) :
    (∃ first last, line = rangeLine first last)
      ∨ line.mark ≠ .range ∧ (line.text ∈ a ∨ line.text ∈ b) := by
  unfold diffLines at hmem
  obtain ⟨grouped, -, hline⟩ := List.mem_flatMap.mp hmem
  unfold groupLines at hline
  split at hline
  · rename_i first last hfirst hlast
    rcases List.mem_cons.mp hline with rfl | hline
    · exact Or.inl ⟨first, last, rfl⟩
    · obtain ⟨code, -, hline⟩ := List.mem_flatMap.mp hline
      exact Or.inr (Opcode.lines_mem hline)
  · cases hline

end Added

end Difflib

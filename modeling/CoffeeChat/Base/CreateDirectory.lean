import CoffeeChat.Base.PathScan
import Mathlib.Data.List.Infix

/-!
# Recursive creation of directories

For a path that ends in a slash, `CreateDirectory` goes through the prefixes of the path that name
directories, repeated slashes collapsed, from the shortest to the whole (`accumulate_cut`); each
goes on from the one before it by one step (`nested_accumulate`). `createDirectory_sound` is about a
call among other processes that create directories between its steps. Such a call fails only where a
regular file is in the way: where `mkdir` fails in a directory the name is taken, nothing is ever
removed, and no regular file is made. So free prefixes are made, with the result true.
-/

namespace CoffeeChat

open Lib Lib.FileTree

namespace FileUtil

/-- The path with repeated slashes collapsed. -/
def collapse : Bytes → Bytes
  | [] => []
  | b :: path =>
    if b = slash ∧ path.head? = some slash then collapse path else b :: collapse path

/-- The prefixes of a path that end in a slash, from the shortest on. -/
def directories (path : Bytes) : List Bytes :=
  path.inits.filter fun front ↦ front.getLast? = some slash

/-- Each path goes on by a step from where the one before it leads, the first from `front`. -/
def Nested (front : Route Bytes) : List Bytes → Prop
  | [] => True
  | path :: paths => (resolve path).front = front ∧ Nested (resolve path) paths

/-! ## Collapsed paths -/

theorem isSeparator_iff {b : UInt8} : isSeparator kFilePathSeparators b = true ↔ b = slash := by
  rw [isSeparator, decide_eq_true_eq]
  exact List.mem_singleton

theorem not_isSeparator_iff {b : UInt8} :
    isSeparator kFilePathSeparators b = false ↔ b ≠ slash := by
  rw [← Bool.not_eq_true]
  exact not_congr isSeparator_iff

theorem ne_slash {word : Bytes} (hword : ∀ a ∈ word, isSeparator kFilePathSeparators a = false) :
    ∀ a ∈ word, a ≠ slash := fun a ha ↦ not_isSeparator_iff.mp (hword a ha)

theorem head?_ne_slash {path : Bytes}
    (hhead : ∀ a ∈ path.head?, isSeparator kFilePathSeparators a = false) :
    path.head? ≠ some slash := fun h ↦ not_isSeparator_iff.mp (hhead slash h) rfl

theorem collapse_word {word : Bytes} (hword : ∀ a ∈ word, a ≠ slash) (path : Bytes) :
    collapse (word ++ path) = word ++ collapse path := by
  induction word with
  | nil => rfl
  | cons b word ih =>
      have hb : ¬ (b = slash ∧ (word ++ path).head? = some slash) := fun h ↦
        hword b List.mem_cons_self h.1
      rw [List.cons_append, collapse, if_neg hb,
        ih fun a ha ↦ hword a (List.mem_cons_of_mem b ha)]
      rfl

theorem collapse_slashes {more : Bytes} (hmore : ∀ a ∈ more, a = slash) {path : Bytes}
    (hpath : path.head? ≠ some slash) :
    collapse (slash :: (more ++ path)) = slash :: collapse path := by
  induction more with
  | nil => rw [List.nil_append, collapse, if_neg fun h ↦ hpath h.2]
  | cons b more ih =>
      obtain rfl : b = slash := hmore b List.mem_cons_self
      have hslash : slash = slash ∧ (slash :: more ++ path).head? = some slash := ⟨rfl, rfl⟩
      rw [collapse, if_pos hslash]
      exact ih fun a ha ↦ hmore a (List.mem_cons_of_mem slash ha)

theorem head?_collapse (path : Bytes) : (collapse path).head? = path.head? := by
  induction path with
  | nil => rfl
  | cons b path ih =>
      rw [collapse]
      split
      · rename_i h
        rw [ih, h.2, h.1]
        rfl
      · rfl

theorem getLast?_collapse (path : Bytes) : (collapse path).getLast? = path.getLast? := by
  induction path with
  | nil => rfl
  | cons b path ih =>
      cases path with
      | nil =>
          have hb : ¬ (b = slash ∧ ([] : Bytes).head? = some slash) := fun h ↦ by cases h.2
          rw [collapse, if_neg hb]
          rfl
      | cons c path =>
          rw [List.getLast?_cons_cons, ← ih, collapse]
          split
          · rfl
          · have hne : collapse (c :: path) ≠ [] := by
              intro hnil
              have hhead := head?_collapse (c :: path)
              rw [hnil] at hhead
              cases hhead
            obtain ⟨d, rest, hrest⟩ := List.exists_cons_of_ne_nil hne
            rw [hrest, List.getLast?_cons_cons]

/-! ## The directories of a path -/

/-- The first directory of a path, and those behind it. -/
theorem directories_word {word : Bytes} (hword : ∀ a ∈ word, a ≠ slash) (path : Bytes) :
    directories (word ++ slash :: path) =
      (word ++ [slash]) :: (directories path).map (word ++ [slash] ++ ·) := by
  have hfirst : word.inits.filter (fun front ↦ front.getLast? = some slash) = [] := by
    rw [List.filter_eq_nil_iff]
    intro front hfront hlast
    have hmem := List.mem_of_getLast? (of_decide_eq_true hlast)
    exact hword slash (((List.mem_inits front word).mp hfront).subset hmem) rfl
  have hrest : ((path.inits.tail.map (word ++ [slash] ++ ·)).filter
      fun front ↦ front.getLast? = some slash) =
        (directories path).map (word ++ [slash] ++ ·) := by
    rw [List.filter_map, directories]
    cases path with
    | nil => rfl
    | cons b path =>
        rw [List.inits_cons, List.tail_cons, List.filter_cons_of_neg (by simp)]
        refine congrArg _ (List.filter_congr ?_)
        intro front hfront
        obtain ⟨rest, -, rfl⟩ := List.mem_map.mp hfront
        simp only [Function.comp_apply, List.getLast?_append, List.getLast?_cons, Option.some_or]
  rw [List.append_cons word slash path, directories, List.inits_append, List.filter_append, hrest,
    List.inits_append, List.filter_append, hfirst]
  show ([word ++ [slash]].filter fun front ↦ front.getLast? = some slash) ++ _ = _
  rw [List.filter_cons_of_pos (by simp)]
  rfl

/-- The accumulated components of a path are its directories, the slashes collapsed. -/
theorem accumulateFrom_cut {path : Bytes} {found : List Bytes}
    (h : Cut kFilePathSeparators path found) (prev : Bytes) :
    accumulateFrom prev found = (directories (collapse path)).map (prev ++ ·) := by
  induction h generalizing prev with
  | nil => rfl
  | @cons word b more path found hword hb hmore hhead hcut ih =>
      obtain rfl : b = slash := isSeparator_iff.mp hb
      have hword := ne_slash hword
      rw [collapse_word hword, collapse_slashes (fun a ha ↦ isSeparator_iff.mp (hmore a ha))
        (head?_ne_slash hhead), directories_word hword]
      show (prev ++ (word ++ [slash])) :: accumulateFrom (prev ++ (word ++ [slash])) found = _
      rw [ih, List.map_cons, List.map_map]
      simp only [Function.comp_def, List.append_assoc]

theorem accumulate_cut {path : Bytes} {found : List Bytes}
    (h : Cut kFilePathSeparators path found) :
    accumulate found = directories (collapse path) := by
  have hfrom : accumulate found = accumulateFrom [] found := by
    cases found with
    | nil => rfl
    | cons first found => rfl
  rw [hfrom, accumulateFrom_cut h]
  exact List.map_id _

/-- A path that ends in a slash is itself one of its directories. -/
theorem mem_directories {path : Bytes} (h : path.getLast? = some slash) :
    path ∈ directories path := by
  rw [directories, List.mem_filter]
  exact ⟨(List.mem_inits path path).mpr (List.prefix_refl path), decide_eq_true h⟩

theorem ne_nil_of_mem_directories {path dir : Bytes} (h : dir ∈ directories path) : dir ≠ [] := by
  rintro rfl
  have hlast := (List.mem_filter.mp h).2
  cases hlast

/-! ## Where a path leads -/

theorem namesFrom_cons (name : Bytes) (b : UInt8) (path : Bytes) :
    namesFrom name (b :: path) =
      if b = slash then if name = [] then namesFrom [] path else name :: namesFrom [] path
      else namesFrom (name ++ [b]) path := rfl

/-- A slash ends the name in front of it, if there is one. -/
theorem namesFrom_slash (name path : Bytes) :
    namesFrom name (slash :: path) = (if name = [] then [] else [name]) ++ namesFrom [] path := by
  rw [namesFrom_cons, if_pos rfl]
  split
  · rfl
  · rfl

/-- Behind a slash the names start anew. -/
theorem namesFrom_append {front : Bytes} (h : front.getLast? = some slash) (name path : Bytes) :
    namesFrom name (front ++ path) = namesFrom name front ++ namesFrom [] path := by
  induction front generalizing name with
  | nil => cases h
  | cons b front ih =>
      cases front with
      | nil =>
          obtain rfl : b = slash := Option.some.inj h
          have hend : namesFrom [] [] = [] := rfl
          rw [List.cons_append, List.nil_append, namesFrom_slash, namesFrom_slash, hend,
            List.append_nil]
      | cons c front =>
          rw [List.getLast?_cons_cons] at h
          rw [List.cons_append, namesFrom_cons, namesFrom_cons name b (c :: front), ih h, ih h]
          split
          · split
            · rfl
            · rfl
          · rfl

/-- A word with the slash behind it is a name. -/
theorem namesFrom_word {word : Bytes} (hword : ∀ a ∈ word, a ≠ slash) (name : Bytes) :
    namesFrom name (word ++ [slash]) = if name ++ word = [] then [] else [name ++ word] := by
  induction word generalizing name with
  | nil =>
      rw [List.nil_append, namesFrom_slash, List.append_nil]
      exact List.append_nil _
  | cons b word ih =>
      rw [List.cons_append, namesFrom, if_neg (hword b List.mem_cons_self),
        ih fun a ha ↦ hword a (List.mem_cons_of_mem b ha), List.append_assoc]
      rfl

/-- Repeated slashes do not change the names. -/
theorem namesFrom_collapse (name path : Bytes) :
    namesFrom name (collapse path) = namesFrom name path := by
  induction path generalizing name with
  | nil => rfl
  | cons b path ih =>
      rw [collapse]
      split
      · rename_i h
        obtain ⟨rfl, hhead⟩ := h
        obtain ⟨rest, rfl⟩ := List.head?_eq_some_iff.mp hhead
        rw [ih, namesFrom_slash, namesFrom_slash, namesFrom_slash [] rest, if_pos rfl,
          List.nil_append]
      · rw [namesFrom, namesFrom, ih, ih]

/-- Repeated slashes do not change where a path leads. -/
theorem resolve_collapse (path : Bytes) : resolve (collapse path) = resolve path := by
  rw [resolve, resolve, head?_collapse, namesFrom_collapse]

/-- A path with a name behind it goes on by a step from where it leads. -/
theorem front_resolve {prev word : Bytes} (hprev : prev.getLast? = some slash)
    (hword : ∀ a ∈ word, a ≠ slash) (hne : word ≠ []) :
    (resolve (prev ++ (word ++ [slash]))).front = resolve prev := by
  have hstart : (prev ++ (word ++ [slash])).head? = prev.head? := by
    cases prev with
    | nil => cases hprev
    | cons b prev => rfl
  rw [resolve, namesFrom_append hprev, namesFrom_word hword, List.nil_append, if_neg hne,
    List.map_append, hstart]
  exact Route.front_append _ _ (stepOf word)

/-- The prefixes behind a directory go on from it, one from the other. -/
theorem nested_accumulateFrom {path : Bytes} {found : List Bytes}
    (h : Cut kFilePathSeparators path found) (hpath : path.head? ≠ some slash) {prev : Bytes}
    (hprev : prev.getLast? = some slash) :
    Nested (resolve prev) (accumulateFrom prev found) := by
  induction h generalizing prev with
  | nil => trivial
  | @cons word b more path found hword hb hmore hhead hcut ih =>
      obtain rfl : b = slash := isSeparator_iff.mp hb
      have hne : word ≠ [] := by
        intro hnil
        rw [hnil] at hpath
        exact hpath rfl
      refine ⟨front_resolve hprev (ne_slash hword) hne, ih (head?_ne_slash hhead) ?_⟩
      show (prev ++ (word ++ [slash])).getLast? = some slash
      rw [← List.append_assoc, List.getLast?_concat]

/-- The directories of a path go on one from the other, the first from where the path starts. -/
theorem nested_accumulate {path : Bytes} {found : List Bytes}
    (h : Cut kFilePathSeparators path found) :
    Nested ⟨path.head? = some slash, []⟩ (accumulate found) := by
  cases h with
  | nil => trivial
  | @cons word b more path found hword hb hmore hhead hcut =>
      obtain rfl : b = slash := isSeparator_iff.mp hb
      refine ⟨?_, nested_accumulateFrom hcut (head?_ne_slash hhead) List.getLast?_concat⟩
      show (resolve (word ++ [slash])).front = _
      rw [resolve, namesFrom_word (ne_slash hword)]
      cases word with
      | nil => rfl
      | cons c word => rfl

/-! ## The loop among other processes -/

/-- A call that goes through the paths `dirs` and calls `mkdir` as `made` says. -/
structure Creates (dirs : List Bytes) (w : World) (made : List MkdirCall) (b : Bool) (w' : World) :
    Prop where
  /-- Everything there was is left, and there are no other regular files. -/
  files : w.files.Extends w'.files
  /-- Each system call has used up what other processes do before it. -/
  others : w'.others <:+ w.others
  calls : w'.calls = w.calls ++ made
  /-- `mkdir` is called on some of the paths, in their order. -/
  order : (made.map MkdirCall.path).Sublist dirs
  /-- Each call finds a directory where its path leads to without the last step. -/
  parents : ∀ c ∈ made, c.files.kind (resolve c.path).front = some .directory
  /-- If the result is true, all paths are directories. -/
  done : b = true → ∀ dir ∈ dirs, w'.files.kind (resolve dir) = some .directory
  /-- If it is false, one of them is a regular file. -/
  refused : b = false → ∃ dir ∈ dirs, w'.files.kind (resolve dir) = some .file
  /-- Without other processes, `mkdir` is called only where there is no directory. -/
  alone : (∀ ls ∈ w.others, ls = []) →
    ∀ c ∈ made, c.files.kind (resolve c.path) ≠ some .directory

theorem settle_extends (w : World) : w.files.Extends w.settle.files :=
  View.createAll_extends (w.others.headD []) w.files

theorem settle_others (w : World) : w.settle.others <:+ w.others := List.tail_suffix w.others

/-- Without other processes nothing changes before a system call. -/
theorem settle_files {w : World} (h : ∀ ls ∈ w.others, ls = []) : w.settle.files = w.files := by
  have hnone : w.others.headD [] = [] := by
    cases hothers : w.others with
    | nil => rfl
    | cons ls others => exact h ls (by rw [hothers]; exact List.mem_cons_self)
  show w.files.createAll (w.others.headD []) = w.files
  rw [hnone]
  exact View.createAll_nil w.files

theorem bind_eq {α β : Type} {x : StateM World α} {f : α → StateM World β} {w w' : World} {a : α}
    (h : x w = (a, w')) : (x >>= f) w = f a w' := by
  show (match x w with | (a, w') => f a w') = _
  rw [h]

theorem modify_eq (f : World → World) (w : World) :
    (modify f : StateM World Unit) w = ((), f w) := rfl

theorem get_eq (w : World) : (get : StateM World World) w = (w, w) := rfl

/-- `opendir` finds out whether a path leads to a directory. -/
theorem opendir_eq {path : Bytes} (hne : path ≠ []) (w : World) :
    opendir path w =
      (decide (w.settle.files.kind (resolve path) = some .directory), w.settle) := by
  show (decide (path ≠ []) && decide (w.settle.files.kind (resolve path) = some .directory),
    w.settle) = _
  rw [decide_eq_true hne, Bool.true_and]

/-- A call of `mkdir` is recorded, and leaves what there was. If it succeeds its path leads to a
directory; if it fails, in a directory, the name is taken. -/
theorem mkdir_spec {path : Bytes} (hne : path ≠ []) (w : World) :
    ∃ result w', mkdir path w = (result, w') ∧ w.files.Extends w'.files ∧
      w'.others = w.settle.others ∧ w'.calls = w.calls ++ [⟨path, w.settle.files⟩] ∧
      (result = 0 → w'.files.kind (resolve path) = some .directory) ∧
      (result ≠ 0 → w.files.kind (resolve path).front = some .directory →
        ∃ k, w'.files.kind (resolve path) = some k) := by
  have hsettled := settle_extends w
  rw [mkdir, bind_eq (modify_eq _ w), bind_eq (modify_eq _ w.settle), if_neg hne,
    bind_eq (get_eq _)]
  cases hmkdir : w.settle.files.mkdir (resolve path) with
  | none =>
      refine ⟨-1, _, rfl, hsettled, rfl, rfl, fun h ↦ (by cases h), fun _ hfront ↦ ?_⟩
      exact View.mkdir_eq_none hmkdir (View.kind_extends hsettled hfront)
  | some files =>
      obtain ⟨hextends, hkind⟩ := View.mkdir_eq_some hmkdir
      exact ⟨0, _, rfl, hsettled.trans hextends, rfl, rfl, fun _ ↦ hkind, fun h ↦ absurd rfl h⟩

/-- One path of the loop behind a directory: the loop ends with false, or it goes on. -/
theorem createMissing_step {path : Bytes} (hne : path ≠ []) (paths : List Bytes) {w : World}
    (hfront : w.files.kind (resolve path).front = some .directory) :
    ∃ made b w', Creates [path] w made b w' ∧
      createMissing (path :: paths) w = if b then createMissing paths w' else (false, w') := by
  have hsettled := settle_extends w
  have hself : path ∈ [path] := List.mem_cons_self
  by_cases hexists : w.settle.files.kind (resolve path) = some .directory
  · -- the directory is there
    refine ⟨[], true, w.settle, ⟨hsettled, settle_others w, (List.append_nil _).symm,
      List.nil_sublist _, fun c hc ↦ (by cases hc), fun _ dir hdir ↦ ?_, fun h ↦ (by cases h),
      fun _ c hc ↦ (by cases hc)⟩, ?_⟩
    · obtain rfl := List.mem_singleton.mp hdir
      exact hexists
    · show (opendir path >>= fun there ↦ if there then createMissing paths else _) w = _
      rw [bind_eq (opendir_eq hne w), decide_eq_true hexists]
      rfl
  · obtain ⟨result, w₁, hmkdir, hfiles, hothers, hcalls, hzero, hfailed⟩ :=
      mkdir_spec hne w.settle
    have hextends : w.files.Extends w₁.files := hsettled.trans hfiles
    have hsuffix : w₁.others <:+ w.others := by
      rw [hothers]
      exact (settle_others w.settle).trans (settle_others w)
    have hparents : ∀ c ∈ [MkdirCall.mk path w.settle.settle.files],
        c.files.kind (resolve c.path).front = some .directory := by
      intro c hc
      obtain rfl := List.mem_singleton.mp hc
      exact View.kind_extends (hsettled.trans (settle_extends w.settle)) hfront
    have halone : (∀ ls ∈ w.others, ls = []) → ∀ c ∈ [MkdirCall.mk path w.settle.settle.files],
        c.files.kind (resolve c.path) ≠ some .directory := by
      intro hnone c hc
      obtain rfl := List.mem_singleton.mp hc
      show w.settle.settle.files.kind (resolve path) ≠ some .directory
      rw [settle_files fun ls hls ↦ hnone ls ((settle_others w).subset hls)]
      exact hexists
    -- what the loop does next depends on what `mkdir` returns
    have hmissing : createMissing (path :: paths) w =
        (if result = 0 then createMissing paths
          else opendir path >>= fun there ↦
            if !there then pure false else createMissing paths : StateM World Bool) w₁ := by
      show (opendir path >>= fun there ↦ if there then createMissing paths
        else mkdir path >>= fun result ↦ if result = 0 then createMissing paths
          else opendir path >>= fun there ↦
            if !there then pure false else createMissing paths : StateM World Bool) w = _
      rw [bind_eq (opendir_eq hne w), decide_eq_false hexists, if_neg Bool.false_ne_true,
        bind_eq hmkdir]
    rw [hmissing]
    by_cases hresult : result = 0
    · -- the directory was made
      refine ⟨_, true, w₁, ⟨hextends, hsuffix, hcalls, List.Sublist.refl _, hparents,
        fun _ dir hdir ↦ ?_, fun h ↦ (by cases h), halone⟩, ?_⟩
      · obtain rfl := List.mem_singleton.mp hdir
        exact hzero hresult
      · rw [if_pos hresult]
        rfl
    · -- `mkdir` has failed; another process may have made the directory
      rw [if_neg hresult, bind_eq (opendir_eq hne w₁)]
      have hlast := hextends.trans (settle_extends w₁)
      have hlastSuffix := (settle_others w₁).trans hsuffix
      by_cases hthere : w₁.settle.files.kind (resolve path) = some .directory
      · refine ⟨_, true, w₁.settle, ⟨hlast, hlastSuffix, hcalls, List.Sublist.refl _, hparents,
          fun _ dir hdir ↦ ?_, fun h ↦ (by cases h), halone⟩, ?_⟩
        · obtain rfl := List.mem_singleton.mp hdir
          exact hthere
        · rw [decide_eq_true hthere]
          rfl
      · refine ⟨_, false, w₁.settle, ⟨hlast, hlastSuffix, hcalls, List.Sublist.refl _, hparents,
          fun h ↦ (by cases h), fun _ ↦ ⟨path, hself, ?_⟩, halone⟩, ?_⟩
        · -- the name is taken, and what took it is there for good
          obtain ⟨k, hk⟩ := hfailed hresult (View.kind_extends hsettled hfront)
          have hkept := View.kind_extends (settle_extends w₁) hk
          cases k with
          | directory => exact absurd hkept hthere
          | file => exact hkept
        · rw [decide_eq_false hthere]
          rfl

/-- The loop stops at a path. -/
theorem Creates.stop {path : Bytes} {w w' : World} {made : List MkdirCall}
    (h : Creates [path] w made false w') (paths : List Bytes) :
    Creates (path :: paths) w made false w' where
  files := h.files
  others := h.others
  calls := h.calls
  order := h.order.trans (List.singleton_sublist.mpr List.mem_cons_self)
  parents := h.parents
  done := fun hdone ↦ by cases hdone
  refused := fun _ ↦ by
    obtain ⟨dir, hdir, hkind⟩ := h.refused rfl
    obtain rfl := List.mem_singleton.mp hdir
    exact ⟨dir, List.mem_cons_self, hkind⟩
  alone := h.alone

/-- The loop goes on behind a path. -/
theorem Creates.again {path : Bytes} {paths : List Bytes} {w w' w'' : World}
    {made more : List MkdirCall} {b : Bool} (h : Creates [path] w made true w')
    (hrest : Creates paths w' more b w'') : Creates (path :: paths) w (made ++ more) b w'' where
  files := h.files.trans hrest.files
  others := hrest.others.trans h.others
  calls := by rw [hrest.calls, h.calls, List.append_assoc]
  order := by
    rw [List.map_append]
    exact h.order.append hrest.order
  parents := fun c hc ↦ (List.mem_append.mp hc).elim (h.parents c) (hrest.parents c)
  done := fun hdone dir hdir ↦ by
    rcases List.mem_cons.mp hdir with rfl | hdir
    · exact View.kind_extends hrest.files (h.done rfl dir List.mem_cons_self)
    · exact hrest.done hdone dir hdir
  refused := fun hrefused ↦ by
    obtain ⟨dir, hdir, hkind⟩ := hrest.refused hrefused
    exact ⟨dir, List.mem_cons_of_mem path hdir, hkind⟩
  alone := fun hnone c hc ↦ by
    have hrestNone : ∀ ls ∈ w'.others, ls = [] := fun ls hls ↦ hnone ls (h.others.subset hls)
    exact (List.mem_append.mp hc).elim (h.alone hnone c) (hrest.alone hrestNone c)

/-- Where there is no regular file every path becomes a directory, and the result is true. -/
theorem Creates.of_no_file {paths : List Bytes} {w w' : World} {made : List MkdirCall} {b : Bool}
    (h : Creates paths w made b w') (hnone : ∀ l, w.files.tree.kind l ≠ some .file) :
    b = true ∧ ∀ dir ∈ paths, w'.files.kind (resolve dir) = some .directory := by
  have hdone : b = true := by
    by_contra hnot
    obtain ⟨dir, _, hkind⟩ := h.refused (Bool.eq_false_of_not_eq_true hnot)
    obtain ⟨l, _, hl⟩ := View.kind_eq_some.mp hkind
    exact hnone l (h.files.tree.files l hl)
  exact ⟨hdone, h.done hdone⟩

/-- The loop over paths that go on one from the other, the first from a directory. -/
theorem createMissing_creates {paths : List Bytes} (hne : ∀ path ∈ paths, path ≠ [])
    {front : Route Bytes} (hnested : Nested front paths) {w : World}
    (hfront : w.files.kind front = some .directory) :
    ∃ made, Creates paths w made (createMissing paths w).1 (createMissing paths w).2 := by
  induction paths generalizing front w with
  | nil =>
      exact ⟨[], View.Extends.refl _, List.suffix_rfl, (List.append_nil _).symm,
        List.nil_sublist _, fun c hc ↦ (by cases hc), fun _ dir hdir ↦ (by cases hdir),
        fun h ↦ (by cases h), fun _ c hc ↦ (by cases hc)⟩
  | cons path paths ih =>
      obtain ⟨hpath, hpaths⟩ := hnested
      rw [← hpath] at hfront
      obtain ⟨made, b, w', hstep, hmissing⟩ :=
        createMissing_step (hne path List.mem_cons_self) paths hfront
      rw [hmissing]
      cases b with
      | false => exact ⟨made, hstep.stop paths⟩
      | true =>
          obtain ⟨more, hrest⟩ := ih (fun path hpath ↦ hne path (List.mem_cons_of_mem _ hpath))
            hpaths (hstep.done rfl path List.mem_cons_self)
          exact ⟨made ++ more, hstep.again hrest⟩

/-- For every path that ends in a slash, whatever lies in memory behind it, all files, every current
directory and all directories that other processes create between the steps: `CreateDirectory`
returns. It has called `mkdir` only on prefixes of the path with repeated slashes collapsed, which
go on one from the other, on each after the shorter ones and while there was a directory to make it
in. If it returns true, all of these and the path itself lead to directories; if it returns false,
one of them leads to a regular file that was there before. -/
theorem createDirectory_sound (path : CString) (hpath : path.bytes.getLast? = some slash)
    (behind : Bytes) (w : World) :
    ∃ made b w', CreateDirectory (path.inMemory behind) w = .ok (b, w') ∧
      Nested ⟨path.bytes.head? = some slash, []⟩ (directories (collapse path.bytes)) ∧
      Creates (directories (collapse path.bytes)) w made b w' ∧
      collapse path.bytes ∈ directories (collapse path.bytes) ∧
      (b = true → w'.files.kind (resolve path.bytes) = some .directory) := by
  obtain ⟨front, last, found, hsplit, hcut, hlast⟩ := exists_cut kFilePathSeparators path.bytes
  have hnil : last = [] := by
    by_contra hne
    have hnot : ¬ Terminated kFilePathSeparators (front ++ last) := not_terminated hne hlast
    rw [← hsplit] at hnot
    refine hnot ?_
    intro b hb
    obtain rfl : b = slash := Option.some.inj (hb.symm.trans hpath)
    exact isSeparator_iff.mpr rfl
  have hcut : Cut kFilePathSeparators path.bytes found := by
    rw [hsplit, hnil, List.append_nil]
    exact hcut
  obtain ⟨reads, hparse, -⟩ := parse_cut hcut behind
  have hfound : found.isEmpty = false := by
    generalize path.bytes = bytes at hcut hpath
    cases hcut with
    | nil => cases hpath
    | cons => rfl
  have hwhole : collapse path.bytes ∈ directories (collapse path.bytes) :=
    mem_directories (by rw [getLast?_collapse, hpath])
  have hnested := nested_accumulate hcut
  rw [accumulate_cut hcut] at hnested
  obtain ⟨made, hcreates⟩ := createMissing_creates (fun _ ↦ ne_nil_of_mem_directories) hnested
    (w.files.kind_start _)
  refine ⟨made, _, _, ?_, hnested, hcreates, hwhole, ?_⟩
  · show (do
      let parsed ← (ParsePathComponentsT (path.inMemory behind) kFilePathSeparators).2
      if parsed.2.isEmpty then return (false, w)
      else return createMissing (accumulate parsed.2) w : Result (Bool × World)) = _
    rw [hparse]
    show (if found.isEmpty then pure (false, w)
      else pure (createMissing (accumulate found) w) : Result (Bool × World)) = _
    rw [hfound, accumulate_cut hcut]
    rfl
  · intro hdone
    rw [← resolve_collapse]
    exact hcreates.done hdone _ hwhole

/-- `c/..//d/`, while another process creates `d` between the last check and the last `mkdir`: the
calls are of `c/` and `c/../d/`, and the result is true. -/
theorem createDirectory_sound_dots :
    ∃ made w', CreateDirectory (CString.inMemory ⟨[99, 47, 46, 46, 47, 47, 100, 47], by decide⟩ [])
        ⟨⟨.empty, [], rfl⟩, [[], [], [], [], [[[100]]]], []⟩ = .ok (true, w') ∧
      made.map MkdirCall.path = [[99, 47], [99, 47, 46, 46, 47, 100, 47]] ∧
      Nested ⟨false, []⟩ (directories (collapse [99, 47, 46, 46, 47, 47, 100, 47])) ∧
      Creates (directories (collapse [99, 47, 46, 46, 47, 47, 100, 47]))
        ⟨⟨.empty, [], rfl⟩, [[], [], [], [], [[[100]]]], []⟩ made true w' ∧
      w'.files.kind (resolve [99, 47, 46, 46, 47, 47, 100, 47]) = some .directory := by
  have hresult : (CreateDirectory
      (CString.inMemory ⟨[99, 47, 46, 46, 47, 47, 100, 47], by decide⟩ [])
        ⟨⟨.empty, [], rfl⟩, [[], [], [], [], [[[100]]]], []⟩).map
          (fun r ↦ (r.1, r.2.calls.map MkdirCall.path)) =
        .ok (true, [[99, 47], [99, 47, 46, 46, 47, 100, 47]]) := rfl
  obtain ⟨made, b, w', hrun, hnested, hcreates, -, hdone⟩ :=
    createDirectory_sound ⟨[99, 47, 46, 46, 47, 47, 100, 47], by decide⟩ rfl []
      ⟨⟨.empty, [], rfl⟩, [[], [], [], [], [[[100]]]], []⟩
  rw [hrun] at hresult
  obtain ⟨rfl, hpaths⟩ := Prod.mk.inj (Except.ok.inj hresult)
  have hcalls : w'.calls = made := hcreates.calls
  rw [hcalls] at hpaths
  exact ⟨made, w', hrun, hpaths, hnested, hcreates, hdone rfl⟩

example : directories (collapse [99, 47, 46, 46, 47, 47, 100, 47]) =
    [[99, 47], [99, 47, 46, 46, 47], [99, 47, 46, 46, 47, 100, 47]] := by decide

end FileUtil

end CoffeeChat

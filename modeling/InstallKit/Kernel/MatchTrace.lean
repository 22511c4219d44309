import InstallKit.Kernel.AtomPatch
import InstallKit.Text.Codes

/-!
# The match trace of IOKit

`apply_n570_iokit_matchtrace_patch.py` puts trace messages around ten places of `IOService.cpp`,
each found by an anchor text.  The anchors and the texts that replace them are unrelated to each other
(`edits_clear`), so the edits commute, and a text that has every anchor once is patched to the same
result in every order (`matchtrace_converges`).
-/

namespace InstallKit

namespace Kernel

namespace MatchTrace

open Text

open AtomPatch (Content Edit text)

/-- Why a run ends with a status that is not zero. -/
inductive Failure
  | notFound
  | undecodable
  | partially
  | anchors (label : String) (count : Nat)
  | missing (marker : List Char)
  deriving DecidableEq

/-- `SOURCE`, below the root of the kernel. -/
def source : String := "src/xnu/iokit/Kernel/IOService.cpp"

/-- What is printed, apart from the `UnicodeDecodeError` of Python itself. -/
def Failure.message : Failure → String
  | .notFound => "source file not found: " ++ source
  | .undecodable => "UnicodeDecodeError"
  | .partially => "partial match-trace patch detected; refusing to modify source"
  | .anchors label count =>
    label ++ " anchor count is " ++ toString count ++ ", expected exactly 1"
  | .missing marker => "post-patch marker missing: " ++ String.ofList marker

/-- `replace_once` -/
def replaceOnce (t : List Char) (e : Edit) : Except Failure (List Char) :=
  if count e.old t ≠ 1 then
    .error (.anchors e.label (count e.old t))
  else
    .ok (replaceFirst e.old e.new t)

/-! ### The texts of the script -/

section

-- the unifier walks along the texts
set_option maxRecDepth 10000

/-- `PREFIX` -/
def matchPrefix : List Char := text "[N570 ATOM-KERNEL][MATCH]" rfl

/-- `REQUIRED_MARKERS` -/
def requiredMarkers : List (List Char) :=
  [text " P>" rfl, text " P<" rfl, text " F>" rfl, text " F<" rfl, text " L>" rfl,
    text " L<" rfl, text " A>" rfl, text " A<" rfl, text " I>" rfl, text " I<" rfl,
    text " T>" rfl, text " T<" rfl, text " R>" rfl, text " R<" rfl, text " D>" rfl,
    text " D<" rfl, text " S>" rfl, text " S<" rfl].map (matchPrefix ++ ·)

/-- The functions that the other edits call. -/
def traceHelper : Edit where
  old :=
    text "static IOService *\t\tgIOResources;\nstatic IOService * \t\tgIOServiceRoot;\n" rfl
  new :=
    text "static IOService *\t\tgIOResources;\nstatic IOService * \t\tgIOServiceRoot;\n" rfl ++
    text "\n/*\n * ASUS Eee PC 1215P / Atom N570 bring-up tracing.\n *\n" rfl ++
    text " * Keep this deliberately narrow: IOResources is where the physical machine\n" rfl ++
    text " * currently stops, while the \"bios\" nub should immediately lead into\n" rfl ++
    text " * AppleSMBIOS matching on the QEMU control.  Avoid libc string dependencies so\n" rfl ++
    text " * this remains safe in the early kernel/IOKit environment.\n */\n" rfl ++
    text "static bool n570_match_trace_name(const char *left, const char *right)\n\x7b\n" rfl ++
    text "    if (!left || !right)\n        return false;\n\n" rfl ++
    text "    while (*left && *right && (*left == *right)) \x7b\n        left++;\n" rfl ++
    text "        right++;\n    \x7d\n\n" rfl ++
    text "    return ((*left == '\\0') && (*right == '\\0'));\n\x7d\n\n" rfl ++
    text "static bool n570_match_trace_service(IOService *service)\n\x7b\n" rfl ++
    text "    if (!service)\n        return false;\n    if (service == gIOResources)\n" rfl ++
    text "        return true;\n\n" rfl ++
    text "    return n570_match_trace_name(service->getName(), \"bios\");\n\x7d\n\n" rfl ++
    text "static const char *n570_match_trace_class(OSDictionary *table)\n\x7b\n" rfl ++
    text "    const OSSymbol *symbol;\n\n    if (!table)\n        return \"<none>\";\n\n" rfl ++
    text "    symbol = OSDynamicCast(OSSymbol, table->getObject(gIOClassKey));\n" rfl ++
    text "    return symbol ? symbol->getCStringNoCopy() : \"<none>\";\n\x7d\n" rfl
  label := "trace helper"

/-- The results that are printed, as variables of `probeCandidates`. -/
def traceVariables : Edit where
  old :=
    text "    bool\t\t\tstarted;\n" rfl
  new :=
    text "    bool\t\t\tstarted;\n    bool                        n570PassiveMatched;\n" rfl ++
    text "    bool                        n570InitOK;\n" rfl ++
    text "    bool                        n570AttachOK;\n" rfl
  label := "probeCandidates trace variables"

/-- `F>` and `F<`, around `matchPropertyTable`. -/
def familyMatch : Edit where
  old :=
    text "            // pass in score from property table\n" rfl ++
    text "            score = IOServiceObjectOrder( table, (void *) gIOProbeScoreKey);\n" rfl ++
    text "\n            // do family specific matching\n" rfl ++
    text "            match = where->matchPropertyTable( table, &score );\n\n" rfl ++
    text "            if( !match) \x7b" rfl
  new :=
    text "            // pass in score from property table\n" rfl ++
    text "            score = IOServiceObjectOrder( table, (void *) gIOProbeScoreKey);\n" rfl ++
    text "\n            // do family specific matching\n" rfl ++
    text "            if (n570_match_trace_service(where))\n" rfl ++
    text "                LOG(\"[N570 ATOM-KERNEL][MATCH] F> %s %s\\n\",\n" rfl ++
    text "                    where->getName(), n570_match_trace_class(table));\n\n" rfl ++
    text "            match = where->matchPropertyTable( table, &score );\n\n" rfl ++
    text "            if (n570_match_trace_service(where))\n" rfl ++
    text "                LOG(\"[N570 ATOM-KERNEL][MATCH] F< %s %s %d\\n\",\n" rfl ++
    text "                    where->getName(), n570_match_trace_class(table), " rfl ++
    text "match ? 1 : 0);\n" rfl ++
    text "\n            if( !match) \x7b" rfl
  label := "family match"

/-- `P>` and `P<`, around `passiveMatch`. -/
def passiveMatch : Edit where
  old :=
    text "\t    // check the nub matches\n" rfl ++
    text "\t    if( false == passiveMatch( props, true ))\n\t\tcontinue;\n" rfl
  new :=
    text "\t    // check the nub matches\n" rfl ++
    text "            if (n570_match_trace_service(this))\n" rfl ++
    text "                LOG(\"[N570 ATOM-KERNEL][MATCH] P> %s %s\\n\",\n" rfl ++
    text "                    getName(), n570_match_trace_class(props));\n\n" rfl ++
    text "            n570PassiveMatched = passiveMatch( props, true );\n\n" rfl ++
    text "            if (n570_match_trace_service(this))\n" rfl ++
    text "                LOG(\"[N570 ATOM-KERNEL][MATCH] P< %s %s %d\\n\",\n" rfl ++
    text "                    getName(), n570_match_trace_class(props),\n" rfl ++
    text "                    n570PassiveMatched ? 1 : 0);\n\n" rfl ++
    text "\t    if( false == n570PassiveMatched )\n\t\tcontinue;\n" rfl
  label := "passive match"

/-- `L>` and `L<`, around `isModuleLoaded`. -/
def moduleLoad : Edit where
  old :=
    text "            // Check to see if driver reloc has been loaded.\n" rfl ++
    text "            needReloc = (false == gIOCatalogue->isModuleLoaded( match ));\n" rfl ++
    text "            if( needReloc) \x7b" rfl
  new :=
    text "            // Check to see if driver reloc has been loaded.\n" rfl ++
    text "            if (n570_match_trace_service(this))\n" rfl ++
    text "                LOG(\"[N570 ATOM-KERNEL][MATCH] L> %s %s\\n\",\n" rfl ++
    text "                    getName(), n570_match_trace_class(props));\n\n" rfl ++
    text "            needReloc = (false == gIOCatalogue->isModuleLoaded( match ));\n\n" rfl ++
    text "            if (n570_match_trace_service(this))\n" rfl ++
    text "                LOG(\"[N570 ATOM-KERNEL][MATCH] L< %s %s %d\\n\",\n" rfl ++
    text "                    getName(), n570_match_trace_class(props), " rfl ++
    text "needReloc ? 0 : 1);\n" rfl ++
    text "\n            if( needReloc) \x7b" rfl
  label := "module load"

/-- `A>` and `A<`, around the allocation of a driver. -/
def driverAllocation : Edit where
  old :=
    text "                // alloc the driver instance\n" rfl ++
    text "                inst = (IOService *) OSMetaClass::allocClassWithName( symbol);\n" rfl ++
    text "    \n                if( !inst) \x7b" rfl
  new :=
    text "                // alloc the driver instance\n" rfl ++
    text "                if (n570_match_trace_service(this))\n" rfl ++
    text "                    LOG(\"[N570 ATOM-KERNEL][MATCH] A> %s %s\\n\",\n" rfl ++
    text "                        getName(), symbol->getCStringNoCopy());\n\n" rfl ++
    text "                inst = (IOService *) OSMetaClass::allocClassWithName( symbol);\n" rfl ++
    text "\n                if (n570_match_trace_service(this))\n" rfl ++
    text "                    LOG(\"[N570 ATOM-KERNEL][MATCH] A< %s %s %d\\n\",\n" rfl ++
    text "                        getName(), symbol->getCStringNoCopy(), inst ? 1 : 0);\n" rfl ++
    text "    \n                if( !inst) \x7b" rfl
  label := "driver allocation"

/-- `I>` and `I<`, around its `init`. -/
def driverInit : Edit where
  old :=
    text "                // init driver instance\n" rfl ++
    text "                if( !(inst->init( props ))) \x7b\n" rfl
  new :=
    text "                // init driver instance\n" rfl ++
    text "                if (n570_match_trace_service(this))\n" rfl ++
    text "                    LOG(\"[N570 ATOM-KERNEL][MATCH] I> %s %s\\n\",\n" rfl ++
    text "                        getName(), symbol->getCStringNoCopy());\n\n" rfl ++
    text "                n570InitOK = inst->init( props );\n\n" rfl ++
    text "                if (n570_match_trace_service(this))\n" rfl ++
    text "                    LOG(\"[N570 ATOM-KERNEL][MATCH] I< %s %s %d\\n\",\n" rfl ++
    text "                        getName(), symbol->getCStringNoCopy(), " rfl ++
    text "n570InitOK ? 1 : 0);\n" rfl ++
    text "\n                if( !n570InitOK ) \x7b\n" rfl
  label := "driver init"

/-- `T>` and `T<`, around its `attach`. -/
def driverAttach : Edit where
  old :=
    text "                // attach driver instance\n" rfl ++
    text "                if( !(inst->attach( this )))\n" rfl ++
    text "                        continue;\n" rfl
  new :=
    text "                // attach driver instance\n" rfl ++
    text "                if (n570_match_trace_service(this))\n" rfl ++
    text "                    LOG(\"[N570 ATOM-KERNEL][MATCH] T> %s %s\\n\",\n" rfl ++
    text "                        getName(), symbol->getCStringNoCopy());\n\n" rfl ++
    text "                n570AttachOK = inst->attach( this );\n\n" rfl ++
    text "                if (n570_match_trace_service(this))\n" rfl ++
    text "                    LOG(\"[N570 ATOM-KERNEL][MATCH] T< %s %s %d\\n\",\n" rfl ++
    text "                        getName(), symbol->getCStringNoCopy(), " rfl ++
    text "n570AttachOK ? 1 : 0);\n" rfl ++
    text "\n                if( !n570AttachOK )\n                        continue;\n" rfl
  label := "driver attach"

/-- `R>` and `R<` around its `probe`, `D>` and `D<` around its `detach`. -/
def driverProbe : Edit where
  old :=
    text "                newInst = inst->probe( this, &score );\n" rfl ++
    text "                inst->detach( this );" rfl
  new :=
    text "                if (n570_match_trace_service(this))\n" rfl ++
    text "                    LOG(\"[N570 ATOM-KERNEL][MATCH] R> %s %s\\n\",\n" rfl ++
    text "                        getName(), symbol->getCStringNoCopy());\n\n" rfl ++
    text "                newInst = inst->probe( this, &score );\n\n" rfl ++
    text "                if (n570_match_trace_service(this))\n" rfl ++
    text "                    LOG(\"[N570 ATOM-KERNEL][MATCH] R< %s %s %d\\n\",\n" rfl ++
    text "                        getName(), symbol->getCStringNoCopy(), newInst ? 1 : 0);\n" rfl ++
    text "\n                if (n570_match_trace_service(this))\n" rfl ++
    text "                    LOG(\"[N570 ATOM-KERNEL][MATCH] D> %s %s\\n\",\n" rfl ++
    text "                        getName(), symbol->getCStringNoCopy());\n\n" rfl ++
    text "                inst->detach( this );\n\n" rfl ++
    text "                if (n570_match_trace_service(this))\n" rfl ++
    text "                    LOG(\"[N570 ATOM-KERNEL][MATCH] D< %s %s\\n\",\n" rfl ++
    text "                        getName(), symbol->getCStringNoCopy());" rfl
  label := "driver probe/detach"

/-- `S>` and `S<`, around `startCandidate`. -/
def driverStart : Edit where
  old :=
    text "                if( false == started)\n" rfl ++
    text "                    started = startCandidate( inst );" rfl
  new :=
    text "                if( false == started) \x7b\n" rfl ++
    text "                    if (n570_match_trace_service(this))\n" rfl ++
    text "                        LOG(\"[N570 ATOM-KERNEL][MATCH] S> %s %s\\n\",\n" rfl ++
    text "                            getName(), inst->getName());\n\n" rfl ++
    text "                    started = startCandidate( inst );\n\n" rfl ++
    text "                    if (n570_match_trace_service(this))\n" rfl ++
    text "                        LOG(\"[N570 ATOM-KERNEL][MATCH] S< %s %s %d\\n\",\n" rfl ++
    text "                            getName(), inst->getName(), started ? 1 : 0);\n" rfl ++
    text "                \x7d" rfl
  label := "driver start"

end

/-- The edits, in their order. -/
def edits : List Edit :=
  [traceHelper, traceVariables, familyMatch, passiveMatch, moduleLoad, driverAllocation, driverInit,
    driverAttach, driverProbe, driverStart]

/-! ### The script -/

/-- A text as `io.open` gives it: every line ends with a line feed. -/
def universalNewlines : List Char → List Char
  | '\r' :: '\n' :: t => '\n' :: universalNewlines t
  | '\r' :: t => '\n' :: universalNewlines t
  | c :: t => c :: universalNewlines t
  | [] => []

/-- What is to be written, if anything. -/
def patch (data : List Char) : Except Failure (Option (List Char)) := do
  if requiredMarkers.any (· <:+: data) then
    if requiredMarkers.any (¬ · <:+: data) then
      throw .partially
    return none
  let data ← edits.foldlM replaceOnce data
  match requiredMarkers.find? (¬ · <:+: data) with
  | some marker => throw (.missing marker)
  | none => return some data

/-- The exit status of a run, and what the file holds after it. -/
structure Outcome where
  status : Nat
  file : Option Content
  deriving DecidableEq

/-- A run on a file. -/
def run : Option Content → Outcome
  | none => ⟨1, none⟩
  | some (.undecodable bytes) => ⟨1, some (.undecodable bytes)⟩
  | some (.text t) =>
    match patch (universalNewlines t) with
    | .error _ => ⟨1, some (.text t)⟩
    | .ok none => ⟨0, some (.text t)⟩
    | .ok (some data) => ⟨0, some (.text data)⟩

variable {s s' t data : List Char} {e f : Edit} {es es' : List Edit}

/-! ### What the edits bring in -/

/-- Where the markers stand in the texts of the edits. -/
def markerPlaces : List (Edit × ℕ) :=
  [(passiveMatch, 99), (passiveMatch, 334), (familyMatch, 240), (familyMatch, 485),
    (moduleLoad, 130), (moduleLoad, 377), (driverAllocation, 122), (driverAllocation, 383),
    (driverInit, 117), (driverInit, 349), (driverAttach, 119), (driverAttach, 354),
    (driverProbe, 77), (driverProbe, 314), (driverProbe, 515), (driverProbe, 735),
    (driverStart, 125), (driverStart, 362)]

theorem requiredMarkers_eq :
    requiredMarkers = markerPlaces.map fun p => (p.1.new.drop p.2).take 28 := by
  decide +kernel

/-- Every marker is brought in by an edit. -/
theorem exists_of_mem_requiredMarkers {marker : List Char} (h : marker ∈ requiredMarkers) :
    ∃ e ∈ edits, marker <:+: e.new := by
  rw [requiredMarkers_eq] at h
  obtain ⟨⟨e, n⟩, hp, rfl⟩ := List.mem_map.1 h
  have hall : ∀ p ∈ markerPlaces, p.1 ∈ edits := by simp [markerPlaces, edits]
  exact ⟨e, hall _ hp, (List.take_prefix _ _).isInfix.trans (List.drop_suffix _ _).isInfix⟩

/-- The edits bring in line feeds only. -/
theorem not_mem_new (he : e ∈ edits) : '\r' ∉ e.new := by
  revert e
  decide +kernel

/-! ### Edits that commute -/

/-- Neither edit makes or breaks a match of the other. -/
def Clear (e f : Edit) : Prop :=
  Unrelated e.old f.old ∧ Unrelated e.old f.new ∧ Unrelated f.old e.new

theorem Clear.symm (h : Clear e f) : Clear f e := ⟨h.1.symm, h.2.2, h.2.1⟩

/-- The edits neither make nor break matches of each other. -/
structure Commuting (es : List Edit) : Prop where
  old_ne : ∀ e ∈ es, e.old ≠ []
  new_ne : ∀ e ∈ es, e.new ≠ []
  apart : ∀ e ∈ es, Apart e.old e.old
  clear : es.Pairwise Clear

theorem Commuting.perm (hes : Commuting es) (hp : es.Perm es') : Commuting es' where
  old_ne e he := hes.old_ne e (hp.mem_iff.2 he)
  new_ne e he := hes.new_ne e (hp.mem_iff.2 he)
  apart e he := hes.apart e (hp.mem_iff.2 he)
  clear := (hp.pairwise_iff fun h => Clear.symm h).1 hes.clear

theorem Commuting.tail (hes : Commuting (e :: es)) : Commuting es where
  old_ne f hf := hes.old_ne f (List.mem_cons_of_mem _ hf)
  new_ne f hf := hes.new_ne f (List.mem_cons_of_mem _ hf)
  apart f hf := hes.apart f (List.mem_cons_of_mem _ hf)
  clear := (List.pairwise_cons.1 hes.clear).2

theorem replaceOnce_of_count (h1 : count e.old s = 1) :
    replaceOnce s e = .ok (replaceFirst e.old e.new s) := by
  rw [replaceOnce, if_neg (by omega)]

theorem replaceOnce_of_ne (h1 : count e.old s ≠ 1) :
    replaceOnce s e = .error (.anchors e.label (count e.old s)) := by
  rw [replaceOnce, if_pos h1]

/-- The matches of the other edits survive an edit. -/
theorem Commuting.occ_replaceFirst (hes : Commuting (e :: es)) (hf : f ∈ es)
    (h1 : occ e.old s = 1) : occ f.old (replaceFirst e.old e.new s) = occ f.old s := by
  have he := hes.old_ne e List.mem_cons_self
  obtain ⟨hoo, -, hno⟩ := (List.pairwise_cons.1 hes.clear).1 f hf
  have hin : e.old <:+: s := (occ_pos_iff he).1 (by omega)
  obtain ⟨a, b, rfl, hr⟩ := exists_replaceFirst e.new he hin
  rw [hr]
  exact (occ_replace_of_unrelated (hes.old_ne f (List.mem_cons_of_mem _ hf)) he
    (hes.new_ne e List.mem_cons_self) hoo.symm hno).symm

/-- One edit, and then the others. -/
theorem Commuting.foldlM_cons (hes : Commuting (e :: es)) (h1 : occ e.old s = 1) :
    (e :: es).foldlM replaceOnce s = es.foldlM replaceOnce (replaceFirst e.old e.new s) := by
  have hcount := count_eq_one_of_occ (hes.old_ne e List.mem_cons_self) h1
  rw [List.foldlM_cons, replaceOnce_of_count hcount]
  rfl

/-- The edits go through one after another just if each finds its match before the first. -/
theorem Commuting.foldlM_ok_iff (hes : Commuting es) :
    (∃ s', es.foldlM replaceOnce s = .ok s') ↔ ∀ e ∈ es, occ e.old s = 1 := by
  induction es generalizing s with
  | nil => simp [pure, Except.pure]
  | cons e es ih =>
    have hcount := count_eq_occ (t := s) (hes.apart e List.mem_cons_self)
      (hes.old_ne e List.mem_cons_self)
    rw [List.forall_mem_cons]
    by_cases h1 : occ e.old s = 1
    · rw [hes.foldlM_cons h1, ih hes.tail, and_iff_right h1]
      exact forall₂_congr fun f hf => by rw [hes.occ_replaceFirst hf h1]
    · rw [List.foldlM_cons, replaceOnce_of_ne (by rwa [hcount])]
      simp [h1, bind, Except.bind]

/-- The edits give the same text in every order. -/
theorem Commuting.foldlM_perm (hp : es.Perm es') (hes : Commuting es)
    (h1 : ∀ e ∈ es, occ e.old s = 1) : es.foldlM replaceOnce s = es'.foldlM replaceOnce s := by
  induction hp generalizing s with
  | nil => rfl
  | cons e hp ih =>
    rw [List.forall_mem_cons] at h1
    rw [hes.foldlM_cons h1.1, (hes.perm (hp.cons e)).foldlM_cons h1.1]
    exact ih hes.tail fun f hf => by rw [hes.occ_replaceFirst hf h1.1, h1.2 f hf]
  | swap e f es =>
    rw [List.forall_mem_cons, List.forall_mem_cons] at h1
    obtain ⟨hf, he, -⟩ := h1
    have hes' := hes.perm (List.Perm.swap e f es)
    have hocc := hes.occ_replaceFirst List.mem_cons_self hf
    have hocc' := hes'.occ_replaceFirst List.mem_cons_self he
    obtain ⟨hoo, hon, hno⟩ := (List.pairwise_cons.1 hes.clear).1 e List.mem_cons_self
    rw [hes.foldlM_cons hf, hes.tail.foldlM_cons (hocc.trans he), hes'.foldlM_cons he,
      hes'.tail.foldlM_cons (hocc'.trans hf),
      replaceFirst_comm (hes.old_ne f (by simp)) (hes.old_ne e (by simp))
        (hes.new_ne f (by simp)) (hes.new_ne e (by simp)) hoo hon hno hf he]
  | trans hp _ ih ih' =>
    rw [ih hes h1, ih' (hes.perm hp) fun f hf => h1 f (hp.mem_iff.2 hf)]

/-- Every text that the edits bring in is in the result. -/
theorem Commuting.infix_of_foldlM (hes : Commuting es) (he : e ∈ es)
    (h : es.foldlM replaceOnce s = .ok s') : e.new <:+: s' := by
  obtain ⟨front, back, rfl⟩ := List.append_of_mem he
  -- the edit is moved to the end
  have hp : (front ++ e :: back).Perm (front ++ back ++ [e]) := by
    rw [List.append_assoc]
    exact (List.perm_append_singleton e back).symm.append_left front
  rw [hes.foldlM_perm hp (hes.foldlM_ok_iff.1 ⟨s', h⟩), List.foldlM_append] at h
  cases hs : (front ++ back).foldlM replaceOnce s with
  | error f => simp [hs, bind, Except.bind] at h
  | ok r =>
    have hlast : [e].foldlM replaceOnce r = .ok s' := by
      rw [← h, hs]
      rfl
    have hone : Commuting [e] :=
      ⟨by simp [hes.old_ne e he], by simp [hes.new_ne e he], by simp [hes.apart e he],
        List.pairwise_singleton _ _⟩
    have h1 : occ e.old r = 1 := hone.foldlM_ok_iff.1 ⟨s', hlast⟩ e List.mem_cons_self
    have hin : e.old <:+: r := (occ_pos_iff (hes.old_ne e he)).1 (by omega)
    obtain ⟨a, b, -, hr⟩ := exists_replaceFirst e.new (hes.old_ne e he) hin
    rw [List.foldlM_cons, replaceOnce_of_count (count_eq_one_of_occ (hes.old_ne e he) h1), hr]
      at hlast
    obtain rfl : a ++ e.new ++ b = s' := by simpa [bind, Except.bind, pure, Except.pure] using hlast
    exact ⟨a, b, rfl⟩

/-! ### The edits of the script -/

/-- `Clear`, decided on numbers. -/
def clearCodes (e f : Edit) : Bool :=
  foreignNumbers codeBound (codes e.old) (codes f.old) &&
    foreignNumbers codeBound (codes e.old) (codes f.new) &&
    foreignNumbers codeBound (codes f.old) (codes e.new)

theorem clear_of_codes (h : clearCodes e f = true) : Clear e f := by
  rw [clearCodes, Bool.and_eq_true, Bool.and_eq_true] at h
  exact ⟨unrelated_of_codes h.1.1, unrelated_of_codes h.1.2, unrelated_of_codes h.2⟩

theorem edits_clear : edits.Pairwise Clear := by
  have h : edits.Pairwise fun e f => clearCodes e f = true := by decide +kernel
  exact h.imp clear_of_codes

theorem edits_commuting : Commuting edits where
  old_ne := by decide +kernel
  new_ne := by decide +kernel
  apart := by
    have h : ∀ e ∈ edits, borderless codeBound (codes e.old) = true := by decide +kernel
    exact fun e he => apart_self_of_codes (h e he)
  clear := edits_clear

/-! ### Runs -/

theorem universalNewlines_of_not_mem (h : '\r' ∉ t) : universalNewlines t = t := by
  induction t with
  | nil => rfl
  | cons c t ih =>
    rw [List.mem_cons, not_or] at h
    rw [universalNewlines, ih h.2]
    · rintro t rfl
      exact absurd rfl h.1
    · rintro rfl
      exact absurd rfl h.1

/-- An edit without a carriage return brings in none. -/
theorem not_mem_replaceFirst {c : Char} (hs : c ∉ s) (hnew : c ∉ e.new) :
    c ∉ replaceFirst e.old e.new s := by
  induction s with
  | nil => simp [replaceFirst]
  | cons x s ih =>
    rw [replaceFirst]
    split
    · rw [List.mem_append, not_or]
      exact ⟨hnew, fun hc => hs (List.mem_of_mem_drop hc)⟩
    · rw [List.mem_cons, not_or] at hs ⊢
      exact ⟨hs.1, ih hs.2⟩

theorem not_mem_of_foldlM {c : Char} (hs : c ∉ s) (hnew : ∀ e ∈ es, c ∉ e.new)
    (h : es.foldlM replaceOnce s = .ok s') : c ∉ s' := by
  induction es generalizing s with
  | nil =>
    obtain rfl : s = s' := by simpa [pure, Except.pure] using h
    exact hs
  | cons e es ih =>
    rw [List.forall_mem_cons] at hnew
    rw [List.foldlM_cons] at h
    by_cases h1 : count e.old s = 1
    · rw [replaceOnce_of_count h1] at h
      exact ih (not_mem_replaceFirst hs hnew.1) hnew.2 h
    · rw [replaceOnce_of_ne h1] at h
      exact absurd h (by simp [bind, Except.bind])

theorem patch_of_marked (h : ∀ m ∈ requiredMarkers, m <:+: data) : patch data = .ok none := by
  have hany : requiredMarkers.any (· <:+: data) = true := by
    rw [List.any_eq_true]
    exact ⟨matchPrefix ++ text " P>" rfl, by decide +kernel, by simpa using h _ (by decide +kernel)⟩
  have hall : ¬ requiredMarkers.any (¬ · <:+: data) = true := by
    rw [List.any_eq_true]
    rintro ⟨m, hm, hnot⟩
    exact of_decide_eq_true hnot (h m hm)
  rw [patch, if_pos hany, if_neg hall]
  rfl

/-- A text without markers is edited. -/
theorem patch_of_unmarked (h : ∀ m ∈ requiredMarkers, ¬ m <:+: data) :
    patch data = (edits.foldlM replaceOnce data).map some := by
  have hany : ¬ requiredMarkers.any (· <:+: data) = true := by
    rw [List.any_eq_true]
    rintro ⟨m, hm, hin⟩
    exact h m hm (of_decide_eq_true hin)
  rw [patch, if_neg hany]
  cases hs : edits.foldlM replaceOnce data with
  | error f => simp [bind, Except.bind, Except.map]
  | ok r =>
    -- the check behind the edits finds every marker
    have hfind : requiredMarkers.find? (¬ · <:+: r) = none := by
      rw [List.find?_eq_none]
      intro m hm hnot
      obtain ⟨e, he, hin⟩ := exists_of_mem_requiredMarkers hm
      exact of_decide_eq_true hnot (hin.trans (edits_commuting.infix_of_foldlM he hs))
    simp only [bind, Except.bind, hfind]
    rfl

/-- A run that fails leaves the file as it was. -/
theorem file_of_failed {c : Option Content} (h : (run c).status ≠ 0) : (run c).file = c := by
  rcases c with _ | t | bytes
  · rfl
  · rw [run] at h ⊢
    rcases hp : patch (universalNewlines t) with f | _ | data
    · rfl
    · rfl
    · rw [hp] at h
      exact absurd rfl h
  · rfl

/-- A run on a text without markers, by what the edits make of it. -/
theorem run_of_unmarked (hlf : '\r' ∉ t) (hmarkers : ∀ m ∈ requiredMarkers, ¬ m <:+: t) :
    (∃ r, edits.foldlM replaceOnce t = .ok r ∧ run (some (.text t)) = ⟨0, some (.text r)⟩) ∨
      ((¬ ∃ r, edits.foldlM replaceOnce t = .ok r) ∧
        run (some (.text t)) = ⟨1, some (.text t)⟩) := by
  rw [run, universalNewlines_of_not_mem hlf, patch_of_unmarked hmarkers]
  cases edits.foldlM replaceOnce t with
  | error f => exact Or.inr ⟨by simp, rfl⟩
  | ok r => exact Or.inl ⟨r, rfl, rfl⟩

/-- The patched text is left alone. -/
theorem run_of_edited {r : List Char} (hlf : '\r' ∉ t)
    (hr : edits.foldlM replaceOnce t = .ok r) : run (some (.text r)) = ⟨0, some (.text r)⟩ := by
  have hlf' : '\r' ∉ r := not_mem_of_foldlM hlf (fun e he => not_mem_new he) hr
  have hmarked : ∀ m ∈ requiredMarkers, m <:+: r := by
    intro m hm
    obtain ⟨e, he, hin⟩ := exists_of_mem_requiredMarkers hm
    exact hin.trans (edits_commuting.infix_of_foldlM he hr)
  rw [run, universalNewlines_of_not_mem hlf', patch_of_marked hmarked]

/-- **The edits converge.**  A text without markers is patched just if every anchor occurs once;
the order of the edits does not matter, a second run changes nothing, and nor does one that
fails. -/
theorem matchtrace_converges (t : List Char) (hlf : '\r' ∉ t)
    (hmarkers : ∀ m ∈ requiredMarkers, ¬ m <:+: t) :
    ((run (some (.text t))).status = 0 ↔ ∀ e ∈ edits, occ e.old t = 1) ∧
    ((run (some (.text t))).status = 0 → ∃ result : List Char,
      (run (some (.text t))).file = some (.text result) ∧
      (∀ order : List Edit, order.Perm edits → order.foldlM replaceOnce t = .ok result) ∧
      run (some (.text result)) = ⟨0, some (.text result)⟩) ∧
    ((run (some (.text t))).status ≠ 0 → (run (some (.text t))).file = some (.text t)) := by
  have hiff := edits_commuting.foldlM_ok_iff (s := t)
  rcases run_of_unmarked hlf hmarkers with ⟨r, hr, hrun⟩ | ⟨hnone, hrun⟩
  · have hone := hiff.1 ⟨r, hr⟩
    refine ⟨?_, fun _ => ⟨r, ?_, fun order hp => ?_, run_of_edited hlf hr⟩, file_of_failed⟩
    · rw [hrun]
      exact iff_of_true rfl hone
    · rw [hrun]
    · rw [← hr]
      exact (edits_commuting.foldlM_perm hp.symm hone).symm
  · have hstatus : (run (some (.text t))).status ≠ 0 := by
      rw [hrun]
      exact Nat.one_ne_zero
    refine ⟨?_, fun h0 => absurd h0 hstatus, file_of_failed⟩
    exact iff_of_false hstatus fun hone => hnone (hiff.2 hone)

/-- The ten anchors one after another are patched. -/
theorem matchtrace_converges_anchors : ∃ result : List Char,
    (run (some (.text (edits.map Edit.old).flatten))).file = some (.text result) ∧
      run (some (.text result)) = ⟨0, some (.text result)⟩ := by
  -- every marker has a bracket, and no anchor has one
  have hbracket : '[' ∉ (edits.map Edit.old).flatten := by decide +kernel
  have hmarkers : ∀ m ∈ requiredMarkers, ¬ m <:+: (edits.map Edit.old).flatten := by
    intro m hm hin
    have hmark : ∀ m ∈ requiredMarkers, '[' ∈ m := by decide +kernel
    exact hbracket (hin.subset (hmark m hm))
  have h := matchtrace_converges (edits.map Edit.old).flatten (by decide +kernel) hmarkers
  have hone : ∀ e ∈ edits, occ e.old (edits.map Edit.old).flatten = 1 := by decide +kernel
  obtain ⟨result, hfile, -, hagain⟩ := h.2.1 (h.1.2 hone)
  exact ⟨result, hfile, hagain⟩

end MatchTrace

end Kernel

end InstallKit

import SgxNfv.LaunchToken.Impl
import SgxNfv.Lib.Runs

/-!
This module contains the verification of the launch token: which tokens `sgx_create_enclave` gets, over
all starts and all failures of the file system.
-/

open C Runs
open Enclave (SgxStatus)
open Processor (sgxSuccess)

namespace LaunchToken

abbrev History := List (Event Disk Start (Int × Bytes 1024))

/--
The start empties the file, to find no token there.
-/
def Start.truncates (env : Start) (d : Disk) : Bool :=
  (fopen env.openRead .rb d).stream = none && env.openWrite

/--
The start writes the token that `sgx_create_enclave` leaves.
-/
def Start.saves (env : Start) (d : Disk) (token : Bytes 1024) : Bool :=
  (env.createEnclave token).1 = sgxSuccess && (env.createEnclave token).2.1
    && (openToken env d).stream.isSome && env.reopen

def writes (e : Event Disk Start (Int × Bytes 1024)) : Bool :=
  e.call.truncates e.before || e.call.saves e.before e.ret.2

/--
What the start writes, when it does.
-/
def written (e : Event Disk Start (Int × Bytes 1024)) : List UInt8 :=
  if e.call.saves e.before e.ret.2 then
    (e.call.createEnclave e.ret.2).2.2.val.take e.call.writeLimit
  else
    []

section

variable (env : Start) (d : Disk)

theorem openToken_cases
    : (env.openRead = true ∧ env.truncates d = false ∧ (openToken env d).stream = some .rb
          ∧ (openToken env d).file = d.file)
        ∨ ((env.openRead = true → d.file = none) ∧ env.truncates d = true
          ∧ openToken env d = { file := some [], stream := some .wb })
        ∨ ((env.openRead = true → d.file = none) ∧ env.truncates d = false
          ∧ openToken env d = fclose d) := by
  unfold Start.truncates openToken
  by_cases hread : env.openRead = true ∧ d.file.isSome = true
  . have hopen : fopen env.openRead .rb d = { d with stream := some .rb } := by
      simp [fopen, hread]
    rw [hopen]
    exact .inl ⟨hread.1, rfl, rfl, rfl⟩
  . have hopen : fopen env.openRead .rb d = fclose d := by
      simp only [fopen, fclose]
      simpa using hread
    have hfile : env.openRead = true → d.file = none := by
      simpa using hread
    rw [hopen]
    cases env.openWrite with
    | true => exact .inr (.inl ⟨hfile, rfl, rfl⟩)
    | false => exact .inr (.inr ⟨hfile, rfl, rfl⟩)

def passedToken : Bytes 1024 :=
  if (openToken env d).stream = none then .zero 1024 else readToken env.readLimit (openToken env d)

theorem initializeEnclave_eq
    : initializeEnclave env d
        =
      let token := passedToken env d
      let (ret, _, newToken) := env.createEnclave token
      (
        (if ret = sgxSuccess then 0 else -1, token),
        if env.saves d token then
          { file := some (newToken.val.take env.writeLimit), stream := none }
        else
          fclose (openToken env d)
      ) := by
  have htoken : passedToken env d = if (openToken env d).stream = none then .zero 1024
      else readToken env.readLimit (openToken env d) := rfl
  unfold initializeEnclave Start.saves
  dsimp only
  rw [← htoken]
  by_cases hret : (env.createEnclave (passedToken env d)).1 = sgxSuccess
  . cases hupdated : (env.createEnclave (passedToken env d)).2.1 with
    | false => simp [hret]
    | true =>
      cases hstream : (openToken env d).stream with
      | none => simp [hret]
      | some mode =>
        cases hreopen : env.reopen with
        | false => simp [hret, freopen, fopen, fclose]
        | true => simp [hret, freopen, fopen, fclose, fwrite]
  . simp [hret]

end

/--
The token in a file, when it is there to the last byte.
-/
def tokenIn (file : Option (List UInt8)) : Option (Bytes 1024) :=
  file.bind fun bytes =>
    if h : 1024 ≤ bytes.length then
      some ⟨bytes.take 1024, by rw [List.length_take]; omega⟩
    else
      none

/--
The token that the last start with a write has left, or the one that was there in front of all
starts.
-/
def lastToken (file : Option (List UInt8)) (h : History) : Option (Bytes 1024) :=
  match h.find? writes with
  | some m => tokenIn (some (written m))
  | none => tokenIn file

/--
The start can read the whole token.
-/
def Start.reads (env : Start) : Prop := env.openRead = true ∧ 1024 ≤ env.readLimit

instance (env : Start) : Decidable env.reads :=
  inferInstanceAs (Decidable (env.openRead = true ∧ 1024 ≤ env.readLimit))

def PassesLast (file : Option (List UInt8)) (e : Event Disk Start (Int × Bytes 1024))
    (h : History) : Prop :=
  e.ret.2 = if e.call.reads then (lastToken file h).getD (.zero 1024) else .zero 1024

theorem readToken_eq (limit : Nat) (d : Disk)
    : readToken limit d
        =
      if h : (fread 1024 limit d).length = 1024 then ⟨fread 1024 limit d, h⟩ else .zero 1024 := by
  unfold readToken
  dsimp only
  by_cases hfull : (fread 1024 limit d).length = 1024
  . rw [if_neg (by simp [hfull]), dif_pos hfull]
    apply Subtype.ext
    simp [hfull]
  . rw [dif_neg hfull]
    by_cases hempty : (fread 1024 limit d).length = 0
    . rw [if_neg (by simp [hempty])]
      apply Subtype.ext
      rw [List.length_eq_zero_iff] at hempty
      dsimp only [Bytes.zero]
      rw [hempty, List.nil_append, List.length_nil]
    . rw [if_pos ⟨hempty, hfull⟩]

theorem readToken_of_rb {d : Disk} (hstream : d.stream = some .rb) (limit : Nat)
    : readToken limit d
        =
      if 1024 ≤ limit then (tokenIn d.file).getD (.zero 1024) else .zero 1024 := by
  have hread : fread 1024 limit d = (d.file.getD []).take (min limit 1024) := by
    simp [fread, hstream]
  rw [readToken_eq]
  by_cases hlimit : 1024 ≤ limit
  . rw [if_pos hlimit]
    rw [Nat.min_eq_right hlimit] at hread
    cases hfile : d.file with
    | none =>
      rw [dif_neg (by simp [hread, hfile])]
      rfl
    | some bytes =>
      rw [hfile, Option.getD_some] at hread
      by_cases hlong : 1024 ≤ bytes.length
      . rw [dif_pos (by rw [hread, List.length_take]; omega)]
        apply Subtype.ext
        simp [tokenIn, hlong, hread]
      . rw [dif_neg (by rw [hread, List.length_take]; omega)]
        simp [tokenIn, hlong]
  . rw [if_neg hlimit, dif_neg]
    rw [hread, List.length_take]
    omega

theorem passedToken_eq (env : Start) (d : Disk)
    : passedToken env d
        =
      if env.reads then (tokenIn d.file).getD (.zero 1024) else .zero 1024 := by
  unfold passedToken
  rcases openToken_cases env d with ⟨hread, _, hstream, hfile⟩ | ⟨hfile, _, hopen⟩ | ⟨hfile, _, hopen⟩
  . rw [if_neg (by simp [hstream]), readToken_of_rb hstream, hfile]
    simp [Start.reads, hread]
  . have hempty : readToken env.readLimit (openToken env d) = .zero 1024 := by
      rw [readToken_eq, hopen, dif_neg]
      simp [fread]
    rw [if_neg (by simp [hopen]), hempty]
    split
    . next hreads =>
      rw [hfile hreads.1]
      rfl
    . rfl
  . rw [if_pos (by simp [hopen, fclose])]
    split
    . next hreads =>
      rw [hfile hreads.1]
      rfl
    . rfl

section

variable {env : Start} {d d' : Disk} {r : Int × Bytes 1024}

theorem step_token (hstep : step d env = .ok (r, d')) : r.2 = passedToken env d := by
  have hinit := Except.ok.inj hstep
  rw [initializeEnclave_eq] at hinit
  exact congrArg (fun x => x.1.2) hinit.symm

theorem step_disk (hstep : step d env = .ok (r, d'))
    : d'.stream = none
        ∧ d'.file = if writes ⟨d, env, r, d'⟩ then some (written ⟨d, env, r, d'⟩) else d.file := by
  have htoken := step_token hstep
  have hinit := Except.ok.inj hstep
  rw [initializeEnclave_eq] at hinit
  have hdisk := congrArg Prod.snd hinit
  dsimp only at hdisk
  rw [← hdisk]
  simp only [writes, written, htoken]
  cases hsave : env.saves d (passedToken env d) with
  | true => simp
  | false =>
    refine ⟨rfl, ?_⟩
    rcases openToken_cases env d with ⟨_, htruncate, _, hfile⟩ | ⟨_, htruncate, hopen⟩
      | ⟨_, htruncate, hopen⟩
    . simp [htruncate, fclose, hfile]
    . simp [htruncate, fclose, hopen]
    . simp [htruncate, fclose, hopen]

end

/--
Every start passes the token of the last start that wrote to the file, when that was saved to its last
byte and can be read, and zeros otherwise. No start leaves a stream open.
-/
theorem passesLast {d d' : Disk} {h : History} (hrun : Run step d d' h)
    : Always (fun e h => PassesLast d.file e h ∧ e.after.stream = none) h := by
  have halways : Always (fun e h => PassesLast d.file e h ∧ e.after.stream = none) h
      ∧ tokenIn d'.file = lastToken d.file h := by
    apply hrun.always_of_invariant rfl
    intro s s' env r h hlast hstep
    have hdisk := step_disk hstep
    refine ⟨⟨?_, hdisk.1⟩, ?_⟩
    . rw [PassesLast, step_token hstep, passedToken_eq, hlast]
    . rw [hdisk.2, lastToken]
      cases hwrite : writes ⟨s, env, r, s'⟩ with
      | true =>
        rw [List.find?_cons_of_pos hwrite]
        rfl
      | false =>
        rw [List.find?_cons_of_neg (by simp [hwrite])]
        exact hlast
  exact halways.1

def exampleStart : Start where
  openRead := true
  openWrite := true
  readLimit := 1024
  createEnclave _ := (sgxSuccess, true, ⟨List.replicate 1024 1, by rw [List.length_replicate]⟩)
  reopen := true
  writeLimit := 1024

theorem passesLast_example
    : ∃ d' h, Run step { file := none, stream := none } d' h ∧ h.length = 2
        ∧ Always (fun e h => PassesLast none e h ∧ e.after.stream = none) h := by
  have hrun : Run step { file := none, stream := none } _ _ :=
    .cons (.cons .nil (c := exampleStart) rfl) (c := exampleStart) rfl
  exact ⟨_, _, hrun, rfl, passesLast hrun⟩

/--
The path to the file below the directory `homeDir`.
-/
def homePath (homeDir : List UInt8) : List UInt8 := homeDir ++ ascii "/enclave.token"

/--
There is room for the path, and for the NUL behind it.
-/
def FitsPath (path : List UInt8) : Prop := path.length + 1 ≤ maxPath

theorem readString_tokenFilename {n : Nat} (hn : 14 ≤ n)
    : readString n tokenFilename = .ok (ascii "enclave.token") :=
  @readString_nul (ascii "enclave.token") (by decide) [] n hn

theorem tokenPath_filename
    : strncpy (List.replicate maxPath 0) tokenFilename tokenFilename.length
        =
      .ok (stringIn maxPath (ascii "enclave.token")) := by
  have hcopy := @strncpy_stringIn maxPath _ _ _ (readString_tokenFilename (Nat.le_refl 14)) (by decide)
    (by decide)
  rw [stringIn_nil] at hcopy
  exact hcopy

theorem tokenPath_home {homeDir : List UInt8} (hhome : (0 : UInt8) ∉ homeDir) (rest : List UInt8)
    (hfits : homeDir.length + 16 ≤ maxPath)
    : (do
        let tokenPath ← strncpy (List.replicate maxPath 0) (homeDir ++ 0 :: rest) homeDir.length
        let tokenPath ← strncat tokenPath (ascii "/" ++ [0]) 1
        strncat tokenPath tokenFilename (tokenFilename.length + 1))
        =
      .ok (stringIn maxPath (homePath homeDir)) := by
  have hslash : (ascii "/").length = 1 := rfl
  have hname : (ascii "enclave.token").length = 13 := rfl
  have hread : readString 1 (ascii "/" ++ [0]) = .ok (ascii "/") := rfl
  have hcopy := @strncpy_stringIn maxPath _ _ _ (readString_take hhome (0 :: rest)) (Nat.le_refl _)
    (by omega)
  have hcat := @strncat_stringIn maxPath _ _ _ _ hhome hread (by omega)
  have hdir : (0 : UInt8) ∉ homeDir ++ ascii "/" := List.not_mem_append hhome (by decide)
  have hcat' := @strncat_stringIn maxPath _ _ _ _ hdir (readString_tokenFilename (Nat.le_succ 14))
    (by rw [List.length_append]; omega)
  rw [stringIn_nil] at hcopy
  rw [hcopy, Except.ok_bind, hcat, Except.ok_bind]
  rw [List.append_assoc] at hcat'
  exact hcat'

theorem length_homePath (homeDir : List UInt8) : (homePath homeDir).length = homeDir.length + 14 := by
  rw [homePath, List.length_append]
  rfl

theorem tokenPath_eq (homeDir rest : List UInt8) (hhome : (0 : UInt8) ∉ homeDir)
    : tokenPath (some (some (homeDir ++ 0 :: rest)))
        =
      .ok (stringIn maxPath
        (if homeDir.length + 16 ≤ maxPath then homePath homeDir else ascii "enclave.token")) := by
  have hslash : strlen (ascii "/" ++ [0]) = .ok 1 := rfl
  have hsize : tokenFilename.length = 14 := rfl
  rw [tokenPath, strlen_append hhome]
  simp only [Except.ok_bind, hslash]
  by_cases hfits : homeDir.length + 16 ≤ maxPath
  . rw [if_pos (by omega), if_pos hfits]
    exact tokenPath_home hhome rest hfits
  . rw [if_neg (by omega), if_neg hfits, tokenPath_filename]

/--
The path stays inside of its array and has an end there, however long the name of the directory is. It is
the one below the directory when that fits, but for one length that the code takes to be too long.
-/
theorem tokenPath_stringIn (homeDir rest : List UInt8) (hhome : (0 : UInt8) ∉ homeDir)
    : ∃ path, tokenPath (some (some (homeDir ++ 0 :: rest))) = .ok (stringIn maxPath path)
        ∧ (stringIn maxPath path).length = maxPath
        ∧ strlen (stringIn maxPath path) = .ok path.length
        ∧ (path = homePath homeDir ∨ path = ascii "enclave.token")
        ∧ (path = homePath homeDir ↔ FitsPath (homePath homeDir) ∧ homeDir.length ≠ 4081) := by
  have hpath := tokenPath_eq homeDir rest hhome
  have hlen := length_homePath homeDir
  have hname : (ascii "enclave.token").length = 13 := rfl
  have hmax : maxPath = 4096 := rfl
  by_cases hfits : homeDir.length + 16 ≤ maxPath
  . rw [if_pos hfits] at hpath
    refine ⟨_, hpath, length_stringIn (by omega), strlen_stringIn ?_ (by omega), .inl rfl, ?_⟩
    . exact List.not_mem_append hhome (by decide)
    . simp only [FitsPath, true_iff]
      omega
  . rw [if_neg hfits] at hpath
    refine ⟨_, hpath, length_stringIn (by omega), strlen_stringIn (by decide) (by omega), .inr rfl, ?_⟩
    apply iff_of_false
    . intro heq
      rw [heq] at hname
      omega
    . simp only [FitsPath]
      omega

def longHome : List UInt8 := List.replicate 4081 0x61

theorem length_longHome : longHome.length = 4081 := List.length_replicate

theorem tokenPath_stringIn_longHome
    : FitsPath (homePath longHome)
        ∧ tokenPath (some (some (longHome ++ 0 :: [])))
          = .ok (stringIn maxPath (ascii "enclave.token")) := by
  have hhome : (0 : UInt8) ∉ longHome := fun h => absurd (List.eq_of_mem_replicate h) (by decide)
  rcases tokenPath_stringIn longHome [] hhome
    with ⟨path, hpath, _, _, hcases, hiff⟩
  rcases hcases with hbelow | rfl
  . exact absurd length_longHome (hiff.mp hbelow).2
  . refine ⟨?_, hpath⟩
    rw [FitsPath, length_homePath, length_longHome]
    decide

end LaunchToken

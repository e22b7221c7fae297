import Palworld.Lib.Run
import Palworld.Lib.Text

/-!
# The live INI and its staged copies

A saved configuration is written to the live INI, to three staged drop-ins and
to the engine's memory. `palworld-maintenance.sh` installs a drop-in before the
game server starts.
-/

open Lib

namespace Palworld.Settings

/-- The files that `settings.py`, `service.py` and `palworld-maintenance.sh` write. -/
inductive IniFile
  | target        -- `settings.ini_path`, the `TARGET_INI` of the script
  | homeFallback  -- `~/.palmanager/PalWorldSettings.ini`
  | stagedVar     -- `/var/lib/palmanager/staged_PalWorldSettings.ini`, the `STAGED_INI_1` of the script
  | stagedHome    -- `~/.palmanager/staged_PalWorldSettings.ini`
  | stagedSteam   -- `/home/steam/.staged_PalWorldSettings.ini`, the `STAGED_INI_2` of the script
  deriving DecidableEq, Repr

abbrev Inis := IniFile → Option Text

/-- Which files the host lets a process write. The others raise `OSError`. -/
abbrev IniIo := IniFile → Bool

/-- `atomic_write_ini`: the whole text, or `OSError` and nothing. -/
def atomicWriteIni (io : IniIo) (inis : Inis) (file : IniFile) (text : Text) : Option Inis :=
  if io file then some (Function.update inis file (some text)) else none

/-- A write whose `OSError` is caught and logged. -/
def tryWriteIni (io : IniIo) (text : Text) (inis : Inis) (file : IniFile) : Inis :=
  (atomicWriteIni io inis file text).getD inis

/-- `_write_ini_file_with_fallback`. `none` is the error of the fallback write. -/
def writeIniFileWithFallback (io : IniIo) (inis : Inis) (text : Text) : Option Inis :=
  (atomicWriteIni io inis .target text).or (atomicWriteIni io inis .homeFallback text)

/-- The drop-ins, in the order the code writes them. -/
def stagedCandidates : List IniFile := [.stagedVar, .stagedHome, .stagedSteam]

def stageSettingsForReboot (io : IniIo) (inis : Inis) (text : Text) : Inis :=
  stagedCandidates.foldl (tryWriteIni io text) inis

/-- The INI files and the `_staged_ini` of the engine. -/
structure Store where
  inis : Inis
  stagedIni : Option Text

def applyStagedConfiguration (io : IniIo) (st : Store) : Store :=
  match st.stagedIni with
  | none | some [] => st
  | some text =>
    { inis := stagedCandidates.foldl (tryWriteIni io text) (tryWriteIni io text st.inis .target)
      stagedIni := none }

end Palworld.Settings

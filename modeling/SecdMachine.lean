import SecdMachine.Fault.Arguments
import SecdMachine.Main
import SecdMachine.Proofs.Bookkeeping
import SecdMachine.Proofs.Calls
import SecdMachine.Proofs.Correspondence
import SecdMachine.Proofs.ExitStatus
import SecdMachine.Proofs.Presentation
import SecdMachine.Verdict
import SecdMachine.Proofs.Patch
import SecdMachine.Proofs.Changes
import SecdMachine.Proofs.Extension
import SecdMachine.Proofs.Shift
import SecdMachine.Proofs.Insertion
import SecdMachine.Proofs.Literals
import SecdMachine.Proofs.Recursion
import SecdMachine.Proofs.Visibility
import SecdMachine.Proofs.PrintedForm
import SecdMachine.Proofs.Rejoining
import SecdMachine.Proofs.LoadReports
import SecdMachine.Proofs.Arithmetic
import SecdMachine.Proofs.Constants
import SecdMachine.Proofs.SettingsFile
import SecdMachine.Proofs.Framing
import SecdMachine.Proofs.Filling
import SecdMachine.Proofs.Comments
import SecdMachine.Proofs.Display
import SecdMachine.Proofs.Wording

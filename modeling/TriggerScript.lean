import TriggerScript.Session
import TriggerScript.Proofs.Trigger.Activation
import TriggerScript.Proofs.Schedule.Active
import TriggerScript.Proofs.Evaluation.Frame
import TriggerScript.Proofs.Folder.Services
import TriggerScript.Proofs.Folder.Failure
import TriggerScript.Proofs.Evaluation.Registration
import TriggerScript.Proofs.Folder.Calls
import TriggerScript.Proofs.Notify.Former
import TriggerScript.Proofs.Schedule.Windows
import TriggerScript.Proofs.Schedule.Sunless
import TriggerScript.Proofs.Folder.Startup
import TriggerScript.Proofs.Evaluation.ShortCircuit
import TriggerScript.Proofs.Evaluation.ElsePart
import TriggerScript.Proofs.Evaluation.Augmented
import TriggerScript.Proofs.Task.Yield

import BitLogic.Check
import BitLogic.Command.Run
import BitLogic.Diagnostic
import BitLogic.Eval
import BitLogic.IR.Printer
import BitLogic.Interpreter
import BitLogic.Listing
import BitLogic.Main
import BitLogic.Prompt.Session
import BitLogic.Proofs.Agreement
import BitLogic.Proofs.CorrectPrefix
import BitLogic.Proofs.Written
import BitLogic.Sampler
import BitLogic.Settings.Load
import BitLogic.Proofs.Layout
import BitLogic.Proofs.Characters
import BitLogic.Proofs.Tiling
import BitLogic.Proofs.Reuse
import BitLogic.Proofs.Likeness
import BitLogic.Proofs.Respacing
import BitLogic.Proofs.Nesting
import BitLogic.Proofs.Located
import BitLogic.Proofs.Blanks
import BitLogic.Proofs.FrontEnds
import BitLogic.Proofs.Remembering
import BitLogic.Proofs.Meaning
import BitLogic.Proofs.Problems
import BitLogic.Proofs.Seams
import BitLogic.Proofs.Excerpts
import BitLogic.Proofs.Limits
import BitLogic.Proofs.Settling
import BitLogic.Proofs.Afresh
import BitLogic.Proofs.Assembly
import BitLogic.Proofs.Colouring
import BitLogic.Proofs.Outline
import BitLogic.Proofs.Draining
import BitLogic.Proofs.Pruning
import BitLogic.Proofs.Sampling

import SmallScheme.Main
import SmallScheme.Session
import SmallScheme.Reader.Stream
import SmallScheme.Proofs.TailCall
import SmallScheme.Proofs.Quit
import SmallScheme.Proofs.RoundTrip
import SmallScheme.Proofs.Pattern
import SmallScheme.Proofs.CutOff
import SmallScheme.Proofs.Dialogue
import SmallScheme.Proofs.Independence
import SmallScheme.Proofs.Circularity
import SmallScheme.Proofs.LoadedText
import SmallScheme.Proofs.Composition
import SmallScheme.Proofs.Transcript
import SmallScheme.Proofs.Lists
import SmallScheme.Proofs.Numbers
import SmallScheme.Proofs.Interleaving
import SmallScheme.Proofs.SeveralFiles
import SmallScheme.Proofs.NormalForm
import SmallScheme.Proofs.FixedRoom
import SmallScheme.Proofs.Resolution
import SmallScheme.Proofs.Tree
import SmallScheme.Proofs.Display
import SmallScheme.Proofs.Pairs
import SmallScheme.Proofs.Seam
import SmallScheme.Proofs.Malformed
import SmallScheme.Proofs.Connectives
import SmallScheme.Proofs.HostCall
import SmallScheme.Proofs.Halted
import SmallScheme.Proofs.Stream
import SmallScheme.Proofs.Modules
import SmallScheme.Proofs.Arithmetic

import HeaderWrap.Disk.Tree
import HeaderWrap.Main
import HeaderWrap.Proofs.Function.Callee
import HeaderWrap.Proofs.Function.Result
import HeaderWrap.Proofs.Header.Arrangement
import HeaderWrap.Proofs.Header.RoundTrip
import HeaderWrap.Proofs.Header.Scan
import HeaderWrap.Proofs.Header.Stability
import HeaderWrap.Proofs.Header.Tiling
import HeaderWrap.Proofs.Naming.Segments
import HeaderWrap.Proofs.Run.Agreement
import HeaderWrap.Proofs.Run.Independence
import HeaderWrap.Proofs.Run.Losses
import HeaderWrap.Proofs.Run.Membership
import HeaderWrap.Proofs.Run.Placement
import HeaderWrap.Proofs.Run.Writing
import HeaderWrap.Proofs.Template.Allotment
import HeaderWrap.Proofs.Template.Leftmost
import HeaderWrap.Proofs.Template.Patching
import HeaderWrap.Proofs.Template.Rereading
import HeaderWrap.Proofs.Disk.Place
import HeaderWrap.Proofs.Model.Faults
import HeaderWrap.Proofs.Model.Rules
import HeaderWrap.Proofs.Run.Confinement
import HeaderWrap.Proofs.Text.Lines

import HkKernel.Word
import HkKernel.Cmdline
import HkKernel.Net.EtherType
import HkKernel.Net.SkBuff
import HkKernel.Net.Ethernet
import HkKernel.Net.Tcp.Input
import HkKernel.Net.Tcp.Stream
import HkKernel.Net.Tcp.Lifecycle
import HkKernel.Net.SocketFile
import HkKernel.Net.Route
import HkKernel.Ns.User
import HkKernel.Ns.Pid
import HkKernel.Ns.PidExhaustion
import HkKernel.Ns.PidTree
import HkKernel.Fs.Error
import HkKernel.Fs.Ext4.Layout
import HkKernel.Fs.Ext4.Extent
import HkKernel.Fs.Ext4.Super
import HkKernel.Fs.Ext4.Mount
import HkKernel.Fs.Ext4.ExtentSafety
import HkKernel.Fs.Ext4.Dir
import HkKernel.Fs.Ext4.Read
import HkKernel.Fs.Ext4.FileRead
import HkKernel.Fs.Ext4.ReadBytes

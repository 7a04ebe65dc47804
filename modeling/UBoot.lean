import UBoot.Env.EditorsAgree
import UBoot.Env.FlashWrite
import UBoot.Net.TftpTransfer
import UBoot.Net.Reassembly
import UBoot.Net.ArpLearned
import UBoot.Lmb.Session
import UBoot.Nand.Erase
import UBoot.Nand.SkipBadRoundTrip
import UBoot.Nand.Yaffs2Source
import UBoot.Mtd.SavedPart
import UBoot.Serial.SaveLoad
import UBoot.Serial.KermitSession
import UBoot.Monitor.Menu
import UBoot.Monitor.BootmOrder
import UBoot.Nand.BootGoodBlocks
import UBoot.Usb.Ep0Safety
import UBoot.Image.Boot
import UBoot.Usb.OhciRuns
import UBoot.Usb.StorageRead
import UBoot.Mtd.CfiBuilds
import UBoot.Monitor.Quoting
import UBoot.Monitor.Browsing
import UBoot.Monitor.Arguments
import UBoot.Env.GetenvR
import UBoot.Env.EnvNandBlocks
import UBoot.Net.DhcpOptions
import UBoot.Net.NfsReplies
import UBoot.Net.EchoReply
import UBoot.Disk.PartDosList
import UBoot.Mtd.PartBounds
import UBoot.Mtd.PartsRoom
import UBoot.Fs.FatNamed
import UBoot.Serial.Circbuf
import UBoot.Rtc.DateRoundTrip
import UBoot.Serial.RecordLength
import UBoot.Mtd.FindPart
import UBoot.Monitor.ParamMenu
import UBoot.Net.Cdp
import UBoot.Mmc.ByteRange
import UBoot.Flash.AbbrevSpec
import UBoot.Usb.Enumerate
import UBoot.Monitor.Completion
import UBoot.Timer.Delay
import UBoot.Usb.OneTransfer
import UBoot.Net.Dm9000Rx
import UBoot.Monitor.MemTest
import UBoot.I2c.Commands
import UBoot.Image.Script
import UBoot.Video.Console
import UBoot.Video.Display
import UBoot.Flash.UpdateContent
import UBoot.Flash.FindSector
import UBoot.Usb.UartSend
import UBoot.Fs.Jffs2Scan
import UBoot.Fs.Jffs2Cache
import UBoot.Fs.Cramfs
import UBoot.Flash.GetSize
import UBoot.Monitor.ConsoleMux
import UBoot.Fs.Jffs2Fragments
import UBoot.Env.HwConfigQueries
import UBoot.Fs.Ext2Read
import UBoot.Fs.Ext2Find
